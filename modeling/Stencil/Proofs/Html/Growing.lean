import Stencil.Proofs.Document.Edits
import Stencil.Proofs.Document.WellFormed
namespace Stencil

/-! # Trees that grow at their end

A tree under construction takes new nodes only behind all others: below the innermost open node, or
below the top if no node is open. Its nodes are made in document order.
-/

/-- A tree that is being built: what is finished directly below the top, and the open nodes with the
innermost first, each with what is finished below it. -/
structure Growing (α : Type) where
  top : List (Tree α)
  opened : List (α × List (Tree α))

namespace Growing

variable {α β : Type}

/-- What is finished below the innermost open node. -/
def content (g : Growing α) : List (Tree α) :=
  match g.opened with
  | [] => g.top
  | (_, ts) :: _ => ts

/-- Changes what is finished below the innermost open node. -/
def change (g : Growing α) (f : List (Tree α) → List (Tree α)) : Growing α :=
  match g.opened with
  | [] => ⟨f g.top, []⟩
  | (a, ts) :: rest => ⟨g.top, (a, f ts) :: rest⟩

/-- Adds a finished tree. -/
def add (g : Growing α) (t : Tree α) : Growing α :=
  g.change (· ++ [t])

/-- Opens a node. -/
def push (g : Growing α) (a : α) : Growing α :=
  ⟨g.top, (a, []) :: g.opened⟩

/-- Finishes the innermost open node. -/
def close (g : Growing α) : Growing α :=
  match g.opened with
  | [] => g
  | (a, ts) :: rest => Growing.add ⟨g.top, rest⟩ (.node a ts)

/-- Finishes the `n` innermost open nodes. -/
def closeMany : Nat → Growing α → Growing α
  | 0, g => g
  | n + 1, g => closeMany n g.close

/-- The tree with every label changed. -/
def map (f : α → β) (g : Growing α) : Growing β :=
  ⟨g.top.map (Tree.map f), g.opened.map fun o => (f o.1, o.2.map (Tree.map f))⟩

theorem map_push (f : α → β) (g : Growing α) (a : α) : (g.push a).map f = (g.map f).push (f a) :=
  rfl

theorem map_change (f : α → β) (g : Growing α) {F : List (Tree α) → List (Tree α)}
    {G : List (Tree β) → List (Tree β)}
    (h : ∀ ts, (F ts).map (Tree.map f) = G (ts.map (Tree.map f))) :
    (g.change F).map f = (g.map f).change G := by
  obtain ⟨top, opened⟩ := g
  cases opened with
  | nil => simp [change, map, h]
  | cons o rest => simp [change, map, h]

theorem content_map (f : α → β) (g : Growing α) :
    (g.map f).content = g.content.map (Tree.map f) := by
  obtain ⟨top, opened⟩ := g
  cases opened <;> rfl

theorem change_congr {g : Growing α} {F G : List (Tree α) → List (Tree α)}
    (h : F g.content = G g.content) : g.change F = g.change G := by
  obtain ⟨top, opened⟩ := g
  cases opened with
  | nil => exact congrArg (Growing.mk · []) h
  | cons o rest => exact congrArg (fun ts => Growing.mk top ((o.1, ts) :: rest)) h

theorem change_change (g : Growing α) (F G : List (Tree α) → List (Tree α)) :
    (g.change F).change G = g.change fun ts => G (F ts) := by
  obtain ⟨top, opened⟩ := g
  cases opened <;> rfl

theorem change_eq_self {g : Growing α} {F : List (Tree α) → List (Tree α)}
    (h : F g.content = g.content) : g.change F = g := by
  obtain ⟨top, opened⟩ := g
  cases opened with
  | nil => exact congrArg (Growing.mk · []) h
  | cons o rest => exact congrArg (fun ts => Growing.mk top ((o.1, ts) :: rest)) h

theorem map_add (f : α → β) (g : Growing α) (t : Tree α) :
    (g.add t).map f = (g.map f).add (t.map f) :=
  map_change f g fun ts => by simp

theorem map_close (f : α → β) (g : Growing α) : g.close.map f = (g.map f).close := by
  obtain ⟨top, opened⟩ := g
  cases opened with
  | nil => rfl
  | cons o rest =>
    have h := map_add f ⟨top, rest⟩ (.node o.1 o.2)
    rw [Tree.map_node] at h
    exact h

theorem map_closeMany (f : α → β) (n : Nat) (g : Growing α) :
    (closeMany n g).map f = closeMany n (g.map f) := by
  induction n generalizing g with
  | zero => rfl
  | succ n ih => rw [closeMany, closeMany, ih, map_close]

theorem opened_change (g : Growing α) (f : List (Tree α) → List (Tree α)) :
    (g.change f).opened.map Prod.fst = g.opened.map Prod.fst := by
  obtain ⟨top, opened⟩ := g
  cases opened <;> rfl

theorem opened_close (g : Growing α) :
    g.close.opened.map Prod.fst = (g.opened.map Prod.fst).tail := by
  obtain ⟨top, opened⟩ := g
  cases opened with
  | nil => rfl
  | cons o rest => exact opened_change ⟨top, rest⟩ _

theorem opened_closeMany (n : Nat) (g : Growing α) :
    (closeMany n g).opened.map Prod.fst = (g.opened.map Prod.fst).drop n := by
  induction n generalizing g with
  | zero => rfl
  | succ n ih => rw [closeMany, ih, opened_close, List.drop_tail]

end Growing

namespace Html.Document

/-! ## Stores that hold a growing tree -/

/-- The innermost of some open nodes, or the document itself. -/
def innermost (opened : List (Spot × List (Tree Spot))) : NodeId :=
  (opened.head?.map fun o => o.1.id).getD root

/-- The store has the open nodes with the finished trees below each, and below the innermost one
also the given `last` nodes. -/
def SupportsOpen (d : Document) (top : List (Tree Spot)) :
    List (Spot × List (Tree Spot)) → List NodeId → Prop
  | [], last =>
    d.nodes[root]? = some ⟨.document, none, top.map Tree.id ++ last⟩ ∧
      ∀ t ∈ top, d.Holds (some root) t
  | (s, ts) :: rest, last =>
    d.nodes[s.id]? = some ⟨s.kind, some (innermost rest), ts.map Tree.id ++ last⟩ ∧
      (∀ t ∈ ts, d.Holds (some s.id) t) ∧ SupportsOpen d top rest [s.id]

/-- The numbers of all nodes below the top and of the open nodes, in document order. -/
def openIds (top : List (Tree Spot)) : List (Spot × List (Tree Spot)) → List NodeId
  | [] => root :: top.flatMap Tree.ids
  | (s, ts) :: rest => openIds top rest ++ s.id :: ts.flatMap Tree.ids

/-- The store is the growing tree: its nodes are those of the tree, numbered in document order. -/
structure Supports (d : Document) (g : Growing Spot) : Prop where
  supports : d.SupportsOpen g.top g.opened []
  ids : openIds g.top g.opened = List.range d.size

variable {d d' : Document} {top : List (Tree Spot)} {opened : List (Spot × List (Tree Spot))}
  {last : List NodeId}

theorem innermost_mem_openIds (top : List (Tree Spot)) (opened : List (Spot × List (Tree Spot))) :
    innermost opened ∈ openIds top opened := by
  cases opened with
  | nil => simp [innermost, openIds]
  | cons o rest => simp [innermost, openIds]

/-- What is changed elsewhere leaves the open nodes alone. -/
theorem SupportsOpen.frame {xs : List NodeId} (h : d.SupportsOpen top opened last)
    (hc : ChangesOnly xs d d') (hdis : ∀ j ∈ openIds top opened, j ∉ xs) :
    d'.SupportsOpen top opened last := by
  induction opened generalizing last with
  | nil =>
    obtain ⟨hroot, hts⟩ := h
    refine ⟨?_, fun t ht => (hts t ht).frame hc fun j hj => hdis j ?_⟩
    · rw [hc.same root (lt_size_of_getElem? hroot) (hdis root (by simp [openIds]))]
      exact hroot
    · exact List.mem_cons_of_mem _ (List.mem_flatMap.2 ⟨t, ht, hj⟩)
  | cons o rest ih =>
    obtain ⟨hs, hts, hrest⟩ := h
    refine ⟨?_, fun t ht => (hts t ht).frame hc fun j hj => hdis j ?_, ih hrest ?_⟩
    · rw [hc.same o.1.id (lt_size_of_getElem? hs) (hdis o.1.id (by simp [openIds]))]
      exact hs
    · exact List.mem_append_right _
        (List.mem_cons_of_mem _ (List.mem_flatMap.2 ⟨t, ht, hj⟩))
    · intro j hj
      exact hdis j (List.mem_append_left _ hj)

/-- An open node is what it is in the store. -/
theorem SupportsOpen.kind?_eq (h : d.SupportsOpen top opened last) :
    ∀ o ∈ opened, d.kind? o.1.id = some o.1.kind := by
  induction opened generalizing last with
  | nil => simp
  | cons o rest ih =>
    obtain ⟨hs, -, hrest⟩ := h
    intro o' ho'
    rcases List.mem_cons.1 ho' with rfl | ho'
    · exact Document.kind?_eq hs
    · exact ih hrest o' ho'

/-- The innermost open node has its finished trees, and takes them as its children. -/
theorem SupportsOpen.content (h : d.SupportsOpen top opened last) :
    d.children (innermost opened) = ((⟨top, opened⟩ : Growing Spot).content.map Tree.id) ++ last ∧
      ∀ t ∈ (⟨top, opened⟩ : Growing Spot).content, d.Holds (some (innermost opened)) t := by
  cases opened with
  | nil => exact ⟨children_eq h.1, h.2⟩
  | cons o rest => exact ⟨children_eq h.1, h.2.1⟩

/-- The innermost open node has been given one more child. -/
theorem SupportsOpen.append (h : d.SupportsOpen top opened last)
    (hn : (openIds top opened).Nodup) (hc : ChangesOnly [innermost opened] d d') {x : NodeId}
    (hx : ∀ n, d.nodes[innermost opened]? = some n →
      d'.nodes[innermost opened]? = some { n with children := n.children ++ [x] }) :
    d'.SupportsOpen top opened (last ++ [x]) := by
  cases opened with
  | nil =>
    obtain ⟨hroot, hts⟩ := h
    rw [openIds, List.nodup_cons] at hn
    refine ⟨?_, fun t ht => (hts t ht).frame hc fun j hj hjr => hn.1 ?_⟩
    · have := hx _ hroot
      rwa [List.append_assoc] at this
    · obtain rfl : j = root := by simpa [innermost] using hjr
      exact List.mem_flatMap.2 ⟨t, ht, hj⟩
  | cons o rest =>
    obtain ⟨hs, hts, hrest⟩ := h
    obtain ⟨s, ts⟩ := o
    rw [openIds, List.nodup_append, List.nodup_cons] at hn
    refine ⟨?_, fun t ht => (hts t ht).frame hc fun j hj hjs => ?_, hrest.frame hc ?_⟩
    · have := hx _ hs
      rwa [List.append_assoc] at this
    · obtain rfl : j = s.id := by simpa [innermost] using hjs
      exact hn.2.1.1 (List.mem_flatMap.2 ⟨t, ht, hj⟩)
    · intro j hj hjs
      obtain rfl : j = s.id := by simpa [innermost] using hjs
      exact hn.2.2 _ hj _ List.mem_cons_self rfl

/-- A node that is linked below another one. -/
theorem getElem?_link_child {child p : NodeId} {place : List NodeId → List NodeId} {n : Node}
    (h : d.parent? child = none) (hne : child ≠ p) (hn : d.nodes[child]? = some n) :
    (d.link p child place).nodes[child]? = some { n with parent := some p } := by
  unfold Document.link
  rw [detach_eq_self h, getElem?_update, if_neg hne.symm, getElem?_update, if_pos rfl, hn]
  rfl

namespace Supports

variable {g : Growing Spot}

theorem nodup (h : d.Supports g) : (openIds g.top g.opened).Nodup := by
  rw [h.ids]
  exact List.nodup_range

theorem innermost_lt_size (h : d.Supports g) : innermost g.opened < d.size := by
  have hmem := innermost_mem_openIds g.top g.opened
  rw [h.ids] at hmem
  exact List.mem_range.1 hmem

/-- A new node below the innermost open one is open itself. -/
theorem push (h : d.Supports g) (k : Kind) :
    ((d.create k).1.append (innermost g.opened) d.size).Supports (g.push ⟨d.size, k⟩) := by
  have hlt := h.innermost_lt_size
  have hne : d.size ≠ innermost g.opened := (Nat.ne_of_lt hlt).symm
  have hnode : (d.create k).1.nodes[d.size]? = some ⟨k, none, []⟩ := by
    rw [getElem?_create, if_pos rfl]
  have hnone : (d.create k).1.parent? d.size = none := parent?_eq hnode
  -- in the old store only the innermost open node is changed
  have hc : ChangesOnly [innermost g.opened] d
      ((d.create k).1.append (innermost g.opened) d.size) := by
    refine ((ChangesOnly.create d k).mono (by simp)).trans (changesOnly_link hnone) ?_
    intro j hj
    rcases List.mem_cons.1 hj with rfl | hj
    · exact Or.inr (Nat.le_refl _)
    · exact Or.inl hj
  constructor
  · refine ⟨getElem?_link_child hnone hne hnode, by simp, ?_⟩
    refine h.supports.append h.nodup hc ?_
    intro n hn
    refine getElem?_link hnone hne ?_
    rw [getElem?_create, if_neg hne.symm, hn]
  · have hsize : ((d.create k).1.append (innermost g.opened) d.size).size = d.size + 1 := by
      simp [Document.append, Document.link]
    simp [Growing.push, openIds, h.ids, hsize, List.range_succ]

/-- An open node that is finished stays where it is. -/
theorem close (h : d.Supports g) : d.Supports g.close := by
  obtain ⟨top, opened⟩ := g
  match opened with
  | [] => exact h
  | [(s, ts)] =>
    obtain ⟨⟨hs, hts, hroot, htop⟩, hids⟩ := h
    have hids' : openIds (top ++ [.node s ts]) [] = List.range d.size := by
      simpa [openIds] using hids
    refine ⟨⟨?_, ?_⟩, hids'⟩
    · simpa [Growing.close, Growing.add, Growing.change] using hroot
    intro t ht
    rcases List.mem_append.1 ht with ht | ht
    · exact htop t ht
    · rw [List.mem_singleton.1 ht]
      exact .node (by simpa [innermost] using hs) hts
  | (s, ts) :: (s', ts') :: rest =>
    obtain ⟨⟨hs, hts, hs', hts', hrest⟩, hids⟩ := h
    have hids' : openIds top ((s', ts' ++ [.node s ts]) :: rest) = List.range d.size := by
      simpa [openIds] using hids
    refine ⟨⟨by simpa using hs', ?_, hrest⟩, hids'⟩
    intro t ht
    rcases List.mem_append.1 ht with ht | ht
    · exact hts' t ht
    · rw [List.mem_singleton.1 ht]
      exact .node (by simpa [innermost] using hs) hts

theorem closeMany (h : d.Supports g) (n : Nat) : d.Supports (Growing.closeMany n g) := by
  induction n generalizing g with
  | zero => exact h
  | succ n ih => exact ih h.close

/-- The last text of the innermost open node may be changed for another text. -/
theorem updateText (h : d.Supports g) {ts us : List (Tree Spot)} {i : NodeId} {old : String}
    (hlast : g.content = ts ++ [.node ⟨i, .text old⟩ us]) (text : String) :
    (d.update i fun n => { n with kind := .text text }).Supports
      (g.change fun _ => ts ++ [.node ⟨i, .text text⟩ us]) := by
  obtain ⟨top, opened⟩ := g
  have hn := h.nodup
  have hc := ChangesOnly.update d i fun n => { n with kind := .text text }
  -- the finished trees before the text are framed, and so is what is below it
  have hcontent : ∀ p, (∀ t ∈ ts ++ [.node ⟨i, .text old⟩ us], d.Holds (some p) t) →
      i ∉ ts.flatMap Tree.ids → i ∉ us.flatMap Tree.ids →
      ∀ t ∈ ts ++ [.node ⟨i, .text text⟩ us],
        (d.update i fun n => { n with kind := .text text }).Holds (some p) t := by
    intro p hall hts hus t ht
    rcases List.mem_append.1 ht with ht | ht
    · refine (hall t (List.mem_append_left _ ht)).frame hc fun j hj hji => hts ?_
      exact List.mem_flatMap.2 ⟨t, ht, List.mem_singleton.1 hji ▸ hj⟩
    · rw [List.mem_singleton.1 ht]
      have hold := hall (.node ⟨i, .text old⟩ us) (by simp)
      refine .node ?_ fun u hu => (hold.inside u hu).frame hc fun j hj hji => hus ?_
      · rw [getElem?_update, if_pos rfl, hold.here]
        rfl
      · exact List.mem_flatMap.2 ⟨u, hu, List.mem_singleton.1 hji ▸ hj⟩
  cases opened with
  | nil =>
    obtain rfl : top = ts ++ [Tree.node ⟨i, .text old⟩ us] := hlast
    obtain ⟨⟨hroot, htop⟩, hids⟩ := h
    simp only [openIds, List.flatMap_append, List.flatMap_cons, List.flatMap_nil, Tree.ids_node,
      List.append_nil, List.nodup_cons, List.mem_append, List.mem_cons, not_or,
      List.nodup_append] at hn
    obtain ⟨⟨hrt, hri, -⟩, -, ⟨hiu, -⟩, hdis⟩ := hn
    refine ⟨⟨?_, hcontent _ htop (fun hm => hdis i hm i (Or.inl rfl) rfl) hiu⟩, ?_⟩
    · rw [getElem?_update, if_neg (Ne.symm hri)]
      simpa [Growing.change] using hroot
    · simpa [Growing.change, openIds] using hids
  | cons o rest =>
    obtain ⟨s, content⟩ := o
    obtain rfl : content = ts ++ [Tree.node ⟨i, .text old⟩ us] := hlast
    obtain ⟨⟨hs, hts, hrest⟩, hids⟩ := h
    simp only [openIds, List.flatMap_append, List.flatMap_cons, List.flatMap_nil, Tree.ids_node,
      List.append_nil, List.nodup_cons, List.mem_append, List.mem_cons, not_or,
      List.nodup_append] at hn
    obtain ⟨-, ⟨⟨hst, hsi, -⟩, -, ⟨hiu, -⟩, hdis⟩, hout⟩ := hn
    refine ⟨⟨?_, hcontent _ hts (fun hm => hdis i hm i (Or.inl rfl) rfl) hiu, ?_⟩, ?_⟩
    · rw [getElem?_update, if_neg (Ne.symm hsi)]
      simpa using hs
    · refine hrest.frame hc fun j hj hji => ?_
      obtain rfl := List.mem_singleton.1 hji
      exact hout j hj j (Or.inr (Or.inr (Or.inl rfl))) rfl
    · simpa [Growing.change, openIds] using hids

/-- A growing tree without open nodes is the tree of its store. -/
theorem holds (h : d.Supports g) (hg : g.opened = []) :
    d.Holds none (.node ⟨root, .document⟩ g.top) ∧
      (Tree.node ⟨root, .document⟩ g.top).ids = List.range d.size := by
  obtain ⟨top, opened⟩ := g
  cases hg
  obtain ⟨⟨hroot, htop⟩, hids⟩ := h
  exact ⟨.node (by simpa using hroot) htop, by simpa [openIds] using hids⟩

end Supports

/-! ## Stores in document order -/

/-- The store is the tree and nothing else, and its nodes are numbered in document order. -/
def IsLaid (d : Document) (t : Tree Kind) : Prop :=
  ∃ u : Tree Spot, d.Holds none u ∧ u.ids = List.range d.size ∧ u.kinds = t

/-- The tree of a document in document order begins at the document itself. -/
theorem IsLaid.exists_root {t : Tree Kind} (h : d.IsLaid t) :
    ∃ u : Tree Spot, d.Holds none u ∧ u.id = root ∧ u.ids = List.range d.size ∧ u.kinds = t := by
  obtain ⟨u, hu, hids, hkinds⟩ := h
  refine ⟨u, hu, ?_, hids, hkinds⟩
  cases u with
  | node s us =>
    have hhead := congrArg List.head? hids
    rw [Tree.ids_node, List.head?_cons, List.head?_range] at hhead
    split at hhead
    · cases hhead
    · exact Option.some.inj hhead

theorem Holds.getElem?_eq {parent : Option NodeId} {u : Tree Spot} (h : d.Holds parent u)
    (h' : d'.Holds parent u) : ∀ j ∈ u.ids, d.nodes[j]? = d'.nodes[j]? := by
  induction h with
  | node here _ ih =>
    intro j hj
    rw [Tree.ids_node, List.mem_cons, List.mem_flatMap] at hj
    rcases hj with rfl | ⟨t, ht, hjt⟩
    · rw [here, h'.here]
    · exact ih t ht (h'.inside t ht) j hjt

/-- There is only one store for a tree. -/
theorem IsLaid.unique {t : Tree Kind} (h : d.IsLaid t) (h' : d'.IsLaid t) : d = d' := by
  obtain ⟨u, hu, hids, rfl⟩ := h
  obtain ⟨u', hu', hids', hkinds⟩ := h'
  have hsize : d.size = d'.size := by
    have := length_ids u
    rw [← hkinds, ← length_ids u', hids, hids', List.length_range, List.length_range] at this
    exact this
  obtain rfl : u = u' := eq_of_kinds_of_ids u hkinds.symm (by rw [hids, hids', hsize])
  have hnodes : d.nodes = d'.nodes := by
    refine Array.ext_getElem? fun j => ?_
    by_cases hj : j < d.size
    · exact hu.getElem?_eq hu' j (by rw [hids]; exact List.mem_range.2 hj)
    · rw [Array.getElem?_eq_none (Nat.le_of_not_lt hj),
        Array.getElem?_eq_none (hsize ▸ Nat.le_of_not_lt hj : d'.size ≤ j)]
  cases d
  cases d'
  cases hnodes
  rfl

end Html.Document

end Stencil
