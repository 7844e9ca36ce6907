import Stencil.Html.Document.Subtree
import Stencil.Proofs.Document.Related
namespace Stencil.Html

/-! # Elements changed on the way down

A pass from the top down changes the elements that it comes by. None of that changes the way, so the
elements can be listed beforehand, and in a forest it comes by each of them once. Several passes in
a row are then one pass, with the changes of an element made one after the other.
-/

/-- The node with its element changed, if it is one. -/
def Node.mapElement (f : Element → Element) (n : Node) : Node :=
  { n with kind := n.kind.mapElement f }

theorem Node.mapElement_mapElement (f g : Element → Element) (n : Node) :
    (n.mapElement g).mapElement f = n.mapElement fun e => f (g e) := by
  rw [mapElement, mapElement, mapElement, Kind.mapElement_mapElement]

namespace Document

variable {d d' : Document} {r : Element → Element → Prop} {f g : Element → Element}
  {ids : List NodeId} {levels : Nat} {id j : NodeId}

/-! ## The way down -/

/-- The nodes that a pass through the upper levels of a subtree comes by: below a node, those of its
children that are elements. -/
def visitLevels (d : Document) : Nat → NodeId → List NodeId
  | 0, _ => []
  | levels + 1, id => id :: (d.elementChildren id).flatMap (visitLevels d levels)

/-- The nodes that a pass through a subtree comes by. -/
def visits (d : Document) (id : NodeId) : List NodeId :=
  d.visitLevels d.size id

theorem Related.visitLevels_eq (h : d.Related r d') (levels : Nat) :
    d.visitLevels levels = d'.visitLevels levels := by
  induction levels with
  | zero => rfl
  | succ levels ih =>
    funext id
    rw [visitLevels, visitLevels, h.elementChildren_eq, ih]

namespace WellFormed

/-- A pass stays inside of its subtree. -/
theorem above_of_mem_visitLevels (hd : d.WellFormed) :
    ∀ {id : NodeId}, j ∈ d.visitLevels levels id → Relation.ReflTransGen d.IsChild j id := by
  induction levels with
  | zero => exact fun h => absurd h List.not_mem_nil
  | succ levels ih =>
    intro id h
    rw [visitLevels, List.mem_cons, List.mem_flatMap] at h
    rcases h with rfl | ⟨child, hchild, hj⟩
    · exact .refl
    · exact (ih hj).tail ((hd.parent_iff child id).2 (List.mem_filter.1 hchild).1)

/-- A pass comes by no node twice. -/
theorem nodup_visitLevels (hd : d.WellFormed) (levels : Nat) (id : NodeId) :
    (d.visitLevels levels id).Nodup := by
  induction levels generalizing id with
  | zero => exact List.nodup_nil
  | succ levels ih =>
    have hup : ∀ c ∈ d.elementChildren id, d.IsChild c id := fun c hc =>
      (hd.parent_iff c id).2 (List.mem_filter.1 hc).1
    rw [visitLevels, List.nodup_cons, List.nodup_flatMap]
    refine ⟨fun hmem => ?_, fun c _ => ih c, ?_⟩
    · -- the node below one of its own children would be below itself
      obtain ⟨c, hc, hid⟩ := List.mem_flatMap.1 hmem
      exact hd.acyclic id (Relation.TransGen.tail' (hd.above_of_mem_visitLevels hid) (hup c hc))
    · refine ((hd.nodup id).filter _).imp_of_mem ?_
      intro a b ha hb hne j hja hjb
      exact hne (hd.eq_of_below_siblings (hup a ha) (hup b hb)
        (hd.above_of_mem_visitLevels hja) (hd.above_of_mem_visitLevels hjb))

theorem above_of_mem_visits (hd : d.WellFormed) (h : j ∈ d.visits id) :
    Relation.ReflTransGen d.IsChild j id :=
  hd.above_of_mem_visitLevels h

theorem nodup_visits (hd : d.WellFormed) (id : NodeId) : (d.visits id).Nodup :=
  hd.nodup_visitLevels d.size id

end WellFormed

/-! ## Changing elements one after the other -/

/-- Changes the elements of some nodes. -/
def updateElements (d : Document) (ids : List NodeId) (f : Element → Element) : Document :=
  ids.foldl (fun acc j => acc.updateElement j f) d

theorem getElem?_updateElement (d : Document) (id : NodeId) (f : Element → Element) (j : NodeId) :
    (d.updateElement id f).nodes[j]? =
      if id = j then d.nodes[j]?.map (Node.mapElement f) else d.nodes[j]? := by
  rw [updateElement, getElem?_update]
  congr 2
  funext n
  obtain ⟨k, p, cs⟩ := n
  cases k <;> rfl

/-- Links stay as they are. -/
theorem related_updateElement (d : Document) (id : NodeId) (f : Element → Element) :
    d.Related (fun _ _ => True) (d.updateElement id f) := by
  intro j
  rw [getElem?_updateElement]
  cases d.nodes[j]? with
  | none => split <;> exact .none
  | some n =>
    split
    · exact .some ⟨Kind.related_mapElement fun _ _ => trivial, rfl, rfl⟩
    · exact .some ⟨Kind.related_self (fun _ => trivial) n.kind, rfl, rfl⟩

theorem visitLevels_updateElements (d : Document) (ids : List NodeId) (f : Element → Element)
    (levels : Nat) : (d.updateElements ids f).visitLevels levels = d.visitLevels levels := by
  refine List.foldlRecOn
    (motive := fun acc : Document => acc.visitLevels levels = d.visitLevels levels) ids _ rfl ?_
  intro acc hacc id _
  rw [← (related_updateElement acc id f).visitLevels_eq, hacc]

theorem visits_updateElements (d : Document) (ids : List NodeId) (f : Element → Element)
    (id : NodeId) : (d.updateElements ids f).visits id = d.visits id := by
  have hsize : (d.updateElements ids f).size = d.size :=
    List.foldlRecOn (motive := fun acc : Document => acc.size = d.size) ids _ rfl
      fun acc hacc j _ => by rw [size_updateElement, hacc]
  rw [visits, visits, visitLevels_updateElements, hsize]

theorem getElem?_updateElements (hn : ids.Nodup) (d : Document) (f : Element → Element)
    (j : NodeId) : (d.updateElements ids f).nodes[j]? =
      if j ∈ ids then d.nodes[j]?.map (Node.mapElement f) else d.nodes[j]? := by
  induction ids generalizing d with
  | nil => rw [if_neg List.not_mem_nil]; rfl
  | cons id ids ih =>
    rw [List.nodup_cons] at hn
    rw [updateElements, List.foldl_cons, ← updateElements, ih hn.2, getElem?_updateElement]
    by_cases hid : id = j
    · -- the rest of the nodes leave the first one alone
      subst hid
      rw [if_neg hn.1, if_pos rfl, if_pos List.mem_cons_self]
    · rw [if_neg hid]
      simp only [List.mem_cons, Ne.symm hid, false_or]

theorem ext_getElem? (h : ∀ j : NodeId, d.nodes[j]? = d'.nodes[j]?) : d = d' := by
  have hnodes : d.nodes = d'.nodes := Array.ext_getElem? h
  cases d
  exact congrArg Document.mk hnodes

/-- Two rounds of changes are one round of both. -/
theorem updateElements_updateElements (hn : ids.Nodup) (d : Document) (f g : Element → Element) :
    (d.updateElements ids g).updateElements ids f = d.updateElements ids fun e => f (g e) := by
  refine ext_getElem? ?_
  intro j
  simp only [getElem?_updateElements hn]
  split
  · rw [Option.map_map]
    congr 1
    funext n
    exact n.mapElement_mapElement f g
  · rfl

theorem updateElements_self (hn : ids.Nodup) (d : Document) :
    (d.updateElements ids fun e => e) = d := by
  refine ext_getElem? ?_
  intro j
  rw [getElem?_updateElements hn]
  split
  · have hself : (Node.mapElement fun e => e) = id := by
      funext n
      rw [Node.mapElement, Kind.mapElement_id]
      rfl
    rw [hself, Option.map_id]
    rfl
  · rfl

/-- Changes of the same elements that are related leave related documents. -/
theorem related_updateElements (hn : ids.Nodup) (hself : ∀ e, r e e) (h : ∀ e, r (f e) (g e)) :
    (d.updateElements ids f).Related r (d.updateElements ids g) := by
  intro j
  rw [getElem?_updateElements hn, getElem?_updateElements hn]
  cases d.nodes[j]? with
  | none => split <;> exact .none
  | some n =>
    split
    · refine .some ⟨?_, rfl, rfl⟩
      show (n.kind.mapElement f).Related r (n.kind.mapElement g)
      cases n.kind with
      | element e => exact .element (h e)
      | _ => exact .other rfl
    · exact .some ⟨Kind.related_self hself n.kind, rfl, rfl⟩

theorem element?_updateElements (hn : ids.Nodup) (d : Document) (f : Element → Element)
    (j : NodeId) : (d.updateElements ids f).element? j =
      if j ∈ ids then (d.element? j).map f else d.element? j := by
  unfold element? kind?
  rw [getElem?_updateElements hn]
  split
  · cases d.nodes[j]? with
    | none => rfl
    | some n =>
      obtain ⟨k, p, cs⟩ := n
      cases k <;> rfl
  · rfl

end Document

end Stencil.Html
