import Stencil.Proofs.Document.WellFormed
namespace Stencil.Html.Document

/-! # Text edits

What putting text into a node does to the store. A new text cuts the links to the old children and
adds one node at most; a text that is added goes into the last child or into a new one.
-/

variable {d : Document} {id : NodeId}

/-! ## A text in a node of its own -/

theorem addText_eq (d : Document) (id : NodeId) (text : String) :
    d.addText id text = (d.create (.text text)).1.append id d.size := rfl

theorem size_addText (d : Document) (id : NodeId) (text : String) :
    (d.addText id text).size = d.size + 1 := by
  simp [addText_eq, append, link]

theorem kind?_addText (d : Document) (id : NodeId) (text : String) (j : NodeId) :
    (d.addText id text).kind? j = if j = d.size then some (.text text) else d.kind? j := by
  rw [addText_eq, append, kind?_link, kind?_create]

theorem parent?_addText (d : Document) (id : NodeId) (text : String) (c : NodeId) :
    (d.addText id text).parent? c = if c = d.size then some id else d.parent? c := by
  rw [addText_eq, append, parent?_link (by simp), parent?_create]

theorem WellFormed.children_addText (hd : d.WellFormed) (h : id < d.size) (text : String)
    (q : NodeId) :
    (d.addText id text).children q = if q = id then d.children q ++ [d.size] else d.children q := by
  -- the new node is no child yet, so there is nothing to take out before it is put in
  have hnew : d.size ∉ d.children q := by
    intro hmem
    exact absurd (hd.lt_size_of_child hmem) (Nat.lt_irrefl _)
  have hlt : id < (d.create (.text text)).1.size := by
    rw [size_create]
    exact Nat.lt_succ_of_lt h
  rw [addText_eq, append, (hd.create _).children_link hlt, children_create,
    filter_eq_self_of_notMem hnew]

/-! ## Nodes that lose their children -/

namespace WellFormed

/-- The parents of nodes whose links up are cut one after the other. -/
theorem parent?_clearParents (ids : List NodeId) (d : Document) (h : ∀ c ∈ ids, c < d.size)
    (c : NodeId) :
    (ids.foldl (fun acc child => acc.update child fun n => { n with parent := none }) d).parent? c =
      if c ∈ ids then none else d.parent? c := by
  induction ids generalizing d with
  | nil => simp
  | cons id ids ih =>
    rw [List.forall_mem_cons] at h
    rw [List.foldl_cons, ih _ (by simpa using h.2), parent?_setParent d id none h.1]
    by_cases hc : c ∈ ids
    · simp [hc]
    · by_cases hid : c = id <;> simp [hc, hid]

theorem children_clearParents (ids : List NodeId) (d : Document) (p : NodeId) :
    (ids.foldl (fun acc child => acc.update child fun n => { n with parent := none })
      d).children p = d.children p := by
  induction ids generalizing d with
  | nil => rfl
  | cons id ids ih => rw [List.foldl_cons, ih, children_setParent]

theorem kind?_clearParents (ids : List NodeId) (d : Document) (j : NodeId) :
    (ids.foldl (fun acc child => acc.update child fun n => { n with parent := none })
      d).kind? j = d.kind? j := by
  induction ids generalizing d with
  | nil => rfl
  | cons id ids ih => rw [List.foldl_cons, ih, kind?_setParent]

/-- A node without its children, which are left without a parent. -/
def clear (d : Document) (id : NodeId) : Document :=
  (d.children id).foldl (fun acc child => acc.update child fun n => { n with parent := none })
    (d.update id fun n => { n with children := [] })

theorem size_clear (d : Document) (id : NodeId) : (clear d id).size = d.size := by
  refine List.foldlRecOn (motive := fun acc : Document => acc.size = d.size) (d.children id) _
    (size_update d id _) ?_
  intro acc hacc child _
  rw [size_update, hacc]

theorem kind?_clear (d : Document) (id j : NodeId) : (clear d id).kind? j = d.kind? j := by
  rw [clear, kind?_clearParents, kind?_setChildren _ id fun _ => []]

theorem children_clear (h : id < d.size) (p : NodeId) :
    (clear d id).children p = if p = id then [] else d.children p := by
  rw [clear, children_clearParents, children_setChildren _ id (fun _ => []) h]

theorem parent?_clear (hd : d.WellFormed) (id c : NodeId) :
    (clear d id).parent? c = if c ∈ d.children id then none else d.parent? c := by
  have hin : ∀ c ∈ d.children id, c < (d.update id fun n => { n with children := [] }).size := by
    intro c hc
    simpa using hd.lt_size_of_child hc
  rw [clear, parent?_clearParents _ _ hin, parent?_setChildren _ id fun _ => []]

theorem parent?_of_clear (hd : d.WellFormed) {c p : NodeId}
    (h : (clear d id).parent? c = some p) : d.parent? c = some p := by
  rw [hd.parent?_clear] at h
  split at h
  · cases h
  · exact h

theorem wellFormed_clear (hd : d.WellFormed) (h : id < d.size) : (clear d id).WellFormed where
  kind_root := by
    rw [kind?_clear]
    exact hd.kind_root
  parent_iff := by
    intro c p
    rw [hd.parent?_clear, children_clear h]
    by_cases hpid : p = id
    · -- the node has lost its children, and they their parent
      subst hpid
      by_cases hcp : c ∈ d.children p
      · simp [hcp]
      · simpa [hcp] using fun he => hcp ((hd.parent_iff c p).1 he)
    · by_cases hcid : c ∈ d.children id
      · -- a child of the node is a child of no other
        have hnot : c ∉ d.children p := by
          intro hm
          have h₁ := (hd.parent_iff c p).2 hm
          rw [(hd.parent_iff c id).2 hcid] at h₁
          exact hpid (Option.some.inj h₁).symm
        simp [hpid, hcid, hnot]
      · simp [hpid, hcid, hd.parent_iff]
  nodup := by
    intro p
    rw [children_clear h]
    split
    · exact List.nodup_nil
    · exact hd.nodup p
  acyclic := by
    intro c hcycle
    have hle : (clear d id).IsChild ≤ d.IsChild := fun a b hab => hd.parent?_of_clear hab
    exact hd.acyclic c (Relation.TransGen.mono hle c c hcycle)

end WellFormed

/-! ## A text instead of the children -/

theorem setText_eq (d : Document) (id : NodeId) (text : String) :
    d.setText id text =
      if text = "" then WellFormed.clear d id else (WellFormed.clear d id).addText id text := rfl

theorem size_le_setText (d : Document) (id : NodeId) (text : String) :
    d.size ≤ (d.setText id text).size := by
  rw [setText_eq]
  split
  · rw [WellFormed.size_clear]
  · rw [size_addText, WellFormed.size_clear]
    exact Nat.le_succ _

theorem kind?_setText {j : NodeId} (hj : j < d.size) (id : NodeId) (text : String) :
    (d.setText id text).kind? j = d.kind? j := by
  rw [setText_eq]
  split
  · exact WellFormed.kind?_clear d id j
  · rw [kind?_addText, WellFormed.size_clear, if_neg hj.ne, WellFormed.kind?_clear]

theorem WellFormed.children_setText (hd : d.WellFormed) (h : id < d.size) (text : String)
    (q : NodeId) :
    (d.setText id text).children q =
      if q = id then (if text = "" then [] else [d.size]) else d.children q := by
  rw [setText_eq]
  by_cases htext : text = ""
  · rw [if_pos htext, if_pos htext, children_clear h]
  · have hlt : id < (clear d id).size := by
      rw [size_clear]
      exact h
    rw [if_neg htext, if_neg htext, (hd.wellFormed_clear h).children_addText hlt, children_clear h,
      size_clear]
    split <;> rfl

theorem WellFormed.parent?_setText (hd : d.WellFormed) {c : NodeId} (hc : c < d.size) (id : NodeId)
    (text : String) :
    (d.setText id text).parent? c = if c ∈ d.children id then none else d.parent? c := by
  rw [setText_eq]
  split
  · exact hd.parent?_clear id c
  · rw [parent?_addText, size_clear, if_neg hc.ne, hd.parent?_clear]

/-! ## A text behind the children -/

/-- A text is the last child of a node. -/
def IsLastText (d : Document) (id last : NodeId) : Prop :=
  (d.children id).getLast? = some last ∧ ∃ old, d.kind? last = some (.text old)

/-- What adding a text can come to: nothing, a longer text in the last child, or a new last
child. -/
theorem appendText_cases (d : Document) (id : NodeId) (text : String) :
    (text = "" ∧ d.appendText id text = d) ∨
      (∃ last old, (d.children id).getLast? = some last ∧ d.kind? last = some (.text old) ∧
        d.appendText id text = d.update last fun n => { n with kind := .text (old ++ text) }) ∨
      ((∀ last, ¬ d.IsLastText id last) ∧ d.appendText id text = d.addText id text) := by
  unfold appendText
  by_cases hempty : text = ""
  · exact Or.inl ⟨hempty, if_pos hempty⟩
  · rw [if_neg hempty]
    refine Or.inr ?_
    cases hlast : (d.children id).getLast? with
    | none =>
      refine Or.inr ⟨?_, rfl⟩
      rintro last ⟨hend, -⟩
      rw [hlast] at hend
      cases hend
    | some last =>
      by_cases htext : ∃ old, d.kind? last = some (.text old)
      · obtain ⟨old, hkind⟩ := htext
        exact Or.inl ⟨last, old, rfl, hkind, by simp only [hkind]⟩
      · refine Or.inr ⟨?_, ?_⟩
        · rintro last' ⟨hend, hold⟩
          obtain rfl : last = last' := Option.some.inj (hlast.symm.trans hend)
          exact htext hold
        · -- the function looks for a text, and there is none
          simp only
          split
          · next old hkind => exact absurd ⟨old, hkind⟩ htext
          · rfl

end Stencil.Html.Document
