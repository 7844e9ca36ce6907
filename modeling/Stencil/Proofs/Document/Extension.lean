import Stencil.Proofs.Document.Copy
import Stencil.Proofs.Document.TextEdits
namespace Stencil.Html.Document

/-! # Growing stores

A pass over a document makes new nodes, puts them where it likes, and takes old nodes out; it never
gives an old node another parent. So nothing old ends up below something new, and a new node may go
below any old one. A store that grows like this from a forest stays a forest.
-/

/-- The new store is a forest that has the nodes of the old one and others, and an old node has kept
its parent or lost it. -/
structure Extends (d d' : Document) : Prop where
  wellFormed : d'.WellFormed
  size_le : d.size ≤ d'.size
  parent_old : ∀ c < d.size, ∀ p, d'.parent? c = some p → d.parent? c = some p

namespace Extends

variable {d d' d'' : Document}

theorem refl (hd : d.WellFormed) : Extends d d :=
  ⟨hd, Nat.le_refl _, fun _ _ _ => id⟩

theorem trans (h : Extends d d') (h' : Extends d' d'') : Extends d d'' where
  wellFormed := h'.wellFormed
  size_le := h.size_le.trans h'.size_le
  parent_old := by
    intro c hc p hp
    exact h.parent_old c hc p (h'.parent_old c (hc.trans_le h.size_le) p hp)

/-- Steps that each extend what the steps before them have left. -/
theorem foldl {α : Type} {f : Document → α → Document} {l : List α} (hd : d.WellFormed)
    (hf : ∀ acc, Extends d acc → ∀ a ∈ l, Extends acc (f acc a)) : Extends d (l.foldl f d) :=
  List.foldlRecOn (motive := fun acc => Extends d acc) l f (refl hd) fun acc hacc a ha =>
    hacc.trans (hf acc hacc a ha)

/-- What is above an old node is old. -/
theorem lt_size_of_above (h : Extends d d') (hd : d.WellFormed) {a b : NodeId} (ha : a < d.size)
    (hab : Relation.ReflTransGen d'.IsChild a b) : b < d.size := by
  induction hab with
  | refl => exact ha
  | tail _ hbc ih => exact hd.parent_lt_size (h.parent_old _ ih _ hbc)

/-- What is above an old node was above it before. -/
theorem above_old (h : Extends d d') (hd : d.WellFormed) {a b : NodeId} (ha : a < d.size)
    (hab : Relation.ReflTransGen d'.IsChild a b) : Relation.ReflTransGen d.IsChild a b := by
  induction hab with
  | refl => exact .refl
  | tail hab hbc ih => exact ih.tail (h.parent_old _ (h.lt_size_of_above hd ha hab) _ hbc)

/-- A new node goes below an old one. -/
theorem link {place : List NodeId → List NodeId} {parent child : NodeId} (h : Extends d d')
    (hd : d.WellFormed) (hp : parent < d.size) (hnew : d.size ≤ child) (hc : child < d'.size)
    (hplace : ∀ l, (place l).Perm (child :: l)) : Extends d (d'.link parent child place) where
  wellFormed := by
    refine h.wellFormed.link (hp.trans_le h.size_le) hc ?_ hplace
    intro hup
    exact absurd (h.lt_size_of_above hd hp hup) (not_lt.2 hnew)
  size_le := by simpa [Document.link] using h.size_le
  parent_old := by
    intro c hlt p hcp
    have hne : c ≠ child := (hlt.trans_le hnew).ne
    rw [parent?_link hc, if_neg hne] at hcp
    exact h.parent_old c hlt p hcp

end Extends

namespace WellFormed

variable {d : Document}

/-! ## Changes of one node -/

theorem extends_create (hd : d.WellFormed) (kind : Kind) : Extends d (d.create kind).1 where
  wellFormed := hd.create kind
  size_le := by simp
  parent_old := by
    intro c _ p hp
    rwa [parent?_create] at hp

theorem extends_detach (hd : d.WellFormed) (id : NodeId) : Extends d (d.detach id) where
  wellFormed := hd.detach id
  size_le := by simp
  parent_old := by
    intro c _ p hp
    rw [parent?_detach] at hp
    split at hp
    · cases hp
    · exact hp

/-- A change that leaves the links of the node alone, and node 0 the document itself. -/
theorem extends_update (hd : d.WellFormed) {id : NodeId} {f : Node → Node}
    (hparent : ∀ n, (f n).parent = n.parent) (hchildren : ∀ n, (f n).children = n.children)
    (hroot : id = root → ∀ n, n.kind = .document → (f n).kind = .document) :
    Extends d (d.update id f) := by
  have hp : ∀ c, (d.update id f).parent? c = d.parent? c := by
    intro c
    simp only [parent?, getElem?_update]
    split
    · cases d.nodes[c]? with
      | none => rfl
      | some n => exact hparent n
    · rfl
  have hc : ∀ p, (d.update id f).children p = d.children p := by
    intro p
    simp only [children_def, getElem?_update]
    split
    · cases d.nodes[p]? with
      | none => rfl
      | some n => exact hchildren n
    · rfl
  refine ⟨hd.of_same_links ?_ hp hc, by simp, fun c _ p h => (hp c).symm.trans h⟩
  rcases Option.map_eq_some_iff.1 hd.kind_root with ⟨n, hn, hk⟩
  simp only [kind?, getElem?_update, hn]
  split
  · next hid => exact congrArg some (hroot hid n hk)
  · exact congrArg some hk

theorem extends_updateElement (hd : d.WellFormed) (id : NodeId) (f : Element → Element) :
    Extends d (d.updateElement id f) := by
  refine hd.extends_update (fun n => ?_) (fun n => ?_) fun _ n hk => ?_
  · rcases n with ⟨kind, _, _⟩
    cases kind <;> rfl
  · rcases n with ⟨kind, _, _⟩
    cases kind <;> rfl
  · simp only [hk]

/-! ## Texts -/

theorem extends_addText (hd : d.WellFormed) {id : NodeId} (h : id < d.size) (text : String) :
    Extends d (d.addText id text) := by
  rw [addText_eq, append]
  exact (hd.extends_create (.text text)).link hd h (Nat.le_refl _) (by simp) fun _ =>
    List.perm_append_singleton _ _

theorem extends_clear (hd : d.WellFormed) {id : NodeId} (h : id < d.size) :
    Extends d (clear d id) where
  wellFormed := hd.wellFormed_clear h
  size_le := (size_clear d id).ge
  parent_old := fun _ _ _ => hd.parent?_of_clear

theorem extends_setText (hd : d.WellFormed) {id : NodeId} (h : id < d.size) (text : String) :
    Extends d (d.setText id text) := by
  have hclear := hd.extends_clear h
  rw [setText_eq]
  split
  · exact hclear
  · exact hclear.trans (hclear.wellFormed.extends_addText (h.trans_le hclear.size_le) text)

theorem extends_appendText (hd : d.WellFormed) {id : NodeId} (h : id < d.size) (text : String) :
    Extends d (d.appendText id text) := by
  rcases appendText_cases d id text with ⟨-, heq⟩ | ⟨last, old, -, hkind, heq⟩ | ⟨-, heq⟩
  · rw [heq]
    exact .refl hd
  · -- the last child is a text, so it is not the document itself
    rw [heq]
    refine hd.extends_update (fun _ => rfl) (fun _ => rfl) fun hid => ?_
    rw [hid, hd.kind_root] at hkind
    cases hkind
  · rw [heq]
    exact hd.extends_addText h text

end WellFormed

/-! ## Copies -/

/-- What copying some levels of a subtree does to a forest: the copy is the first new node, and it
has no parent. -/
structure Clones (d d' : Document) (copy : NodeId) : Prop where
  extension : Extends d d'
  copy_eq : copy = d.size
  copy_lt : copy < d'.size
  parent_copy : d'.parent? copy = none

theorem clones_cloneLevels (levels : Nat) : ∀ (d : Document) (id : NodeId), d.WellFormed →
    Clones d (cloneLevels levels d id).1 (cloneLevels levels d id).2 := by
  have hmade : ∀ (d : Document) (kind : Kind), (d.create kind).1.parent? d.size = none := by
    intro d kind
    rw [parent?_create, parent?_size]
  induction levels with
  | zero =>
    intro d id hd
    exact ⟨hd.extends_create _, rfl, by simp [cloneLevels], hmade d _⟩
  | succ levels ih =>
    intro d id hd
    rw [cloneLevels_succ]
    set made := (d.create ((d.kind? id).getD .document)).1
    have hstart : Extends d made := hd.extends_create _
    have hin : d.size < made.size := by simp [made]
    -- every copy of a child is new, and it goes below the copy of its parent, which is not
    have hall : Extends made ((d.children id).foldl (cloneInto levels d.size) made) := by
      refine Extends.foldl hstart.wellFormed fun acc hacc child _ => ?_
      have hclone := ih acc child hacc.wellFormed
      have hlt : d.size < acc.size := hin.trans_le hacc.size_le
      rw [cloneInto, attach_eq_append hclone.parent_copy]
      exact hclone.extension.link hacc.wellFormed hlt hclone.copy_eq.ge hclone.copy_lt fun _ =>
        List.perm_append_singleton _ _
    refine ⟨hstart.trans hall, rfl, hin.trans_le hall.size_le, ?_⟩
    by_contra hne
    rcases Option.ne_none_iff_exists'.1 hne with ⟨p, hp⟩
    have hold := hall.parent_old d.size hin p hp
    rw [hmade] at hold
    cases hold

theorem WellFormed.clones_deepClone {d : Document} (hd : d.WellFormed) (id : NodeId) :
    Clones d (d.deepClone id).1 (d.deepClone id).2 :=
  clones_cloneLevels d.size d id hd

/-! ## Places among children -/

theorem perm_placeBefore (x y : NodeId) (l : List NodeId) : (placeBefore x y l).Perm (x :: l) := by
  induction l with
  | nil => exact List.Perm.refl _
  | cons z l ih =>
    unfold placeBefore
    split
    · exact List.Perm.refl _
    · exact (ih.cons z).trans (List.Perm.swap x z l)

end Stencil.Html.Document
