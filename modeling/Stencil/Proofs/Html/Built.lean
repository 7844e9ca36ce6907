import Stencil.Html.Parse
import Stencil.Proofs.Document.TextEdits
namespace Stencil.Html

/-! # Built documents

The builder keeps its document well-formed, and everything that it puts into the document goes below
the document itself or below an open element. So every parsed document is a forest in which only the
document and elements have something inside.
-/

namespace Document

variable {d : Document}

/-- A node of another kind than the rest may be added below the document or below an element. -/
theorem OnlyElementsBranch.append_create (hb : d.OnlyElementsBranch) (hd : d.WellFormed)
    (kind : Kind) {p : NodeId} (hp : p < d.size) (hk : p = root ∨ d.isElement p = true) :
    ((d.create kind).1.append p d.size).OnlyElementsBranch := by
  refine hb.of_children hk ?_ ?_
  · intro q hq
    have hnew : d.size ∉ d.children q := fun hmem =>
      absurd (hd.lt_size_of_child hmem) (Nat.lt_irrefl _)
    rw [append, (hd.create kind).children_link (by simpa using Nat.lt_succ_of_lt hp), if_neg hq,
      children_create, filter_eq_self_of_notMem hnew]
  · -- the old nodes are what they were
    intro q hq
    refine (isElement_congr ?_).trans hq
    rw [append, kind?_link, kind?_create, if_neg (lt_size_of_isElement hq).ne]

end Document

namespace Builder

/-- The document is a forest as it should be, and all that is open are elements of it. -/
structure Sound (b : Builder) : Prop where
  wellFormed : b.document.WellFormed
  branch : b.document.OnlyElementsBranch
  isElement : ∀ id ∈ b.openElements, b.document.isElement id = true

namespace Sound

variable {b : Builder}

theorem start : Sound .start where
  wellFormed :=
    { kind_root := rfl
      parent_iff := by
        intro c p
        have hp : Document.empty.parent? c = none := by
          cases c <;> simp [Document.parent?, Document.empty]
        have hc : Document.empty.children p = [] := by
          cases p <;> simp [Document.children, Document.empty]
        simp [Builder.start, hp, hc]
      nodup := by
        intro p
        cases p <;> simp [Builder.start, Document.children, Document.empty]
      acyclic := by
        intro c h
        rcases Relation.TransGen.head'_iff.1 h with ⟨x, hx, -⟩
        cases c <;> simp [Builder.start, Document.IsChild, Document.parent?, Document.empty] at hx }
  branch := by
    intro id hid
    cases id <;> simp [Builder.start, Document.children, Document.empty] at hid
  isElement := by simp [Builder.start]

/-- The stack may lose elements. -/
theorem of_subset (h : b.Sound) {b' : Builder} (hd : b'.document = b.document)
    (hs : ∀ id ∈ b'.openElements, id ∈ b.openElements) : b'.Sound where
  wellFormed := hd ▸ h.wellFormed
  branch := hd ▸ h.branch
  isElement := fun id hid => hd ▸ h.isElement id (hs id hid)

/-- What comes next goes below the document or an element. -/
theorem container (h : b.Sound) :
    b.container < b.document.size ∧
      (b.container = Document.root ∨ b.document.isElement b.container = true) := by
  unfold Builder.container
  cases hs : b.openElements with
  | nil => exact ⟨h.wellFormed.root_lt_size, Or.inl rfl⟩
  | cons id rest =>
    have he := h.isElement id (by simp [hs])
    exact ⟨Document.lt_size_of_isElement he, Or.inr he⟩

theorem addNode (h : b.Sound) (kind : Kind) : (b.addNode kind).1.Sound where
  wellFormed := h.wellFormed.append_create kind h.container.1
  branch := h.branch.append_create h.wellFormed kind h.container.1 h.container.2
  isElement := by
    intro id hid
    have hold := h.isElement id hid
    refine (Document.isElement_congr ?_).trans hold
    -- an element that was open was in the document, so it is not the new node
    have hne : id ≠ b.document.size := (Document.lt_size_of_isElement hold).ne
    simp only [Builder.addNode]
    rw [Document.append, Document.kind?_link, Document.kind?_create, if_neg hne]

/-- The node that has been added has its kind. -/
theorem kind?_addNode (b : Builder) (kind : Kind) :
    (b.addNode kind).1.document.kind? (b.addNode kind).2 = some kind := by
  simp only [Builder.addNode]
  rw [Document.append, Document.kind?_link, Document.kind?_create, Document.id_create, if_pos rfl]

theorem dropClosed_subset (d : Document) (name : String) (ids : List NodeId) :
    ∀ id ∈ dropClosed d name ids, id ∈ ids := by
  induction ids with
  | nil => simp [dropClosed]
  | cons id rest ih =>
    intro j hj
    unfold dropClosed at hj
    split at hj
    · exact List.mem_cons_of_mem _ (ih j hj)
    · exact hj

theorem splitAtName_subset (d : Document) (name : String) (ids : List NodeId) :
    ∀ {inside around}, splitAtName d name ids = some (inside, around) →
      ∀ id ∈ around, id ∈ ids := by
  induction ids with
  | nil => simp [splitAtName]
  | cons id rest ih =>
    intro inside around h j hj
    unfold splitAtName at h
    split at h
    · cases h
      exact List.mem_cons_of_mem _ hj
    · rcases Option.map_eq_some_iff.1 h with ⟨⟨inside', around'⟩, hsplit, heq⟩
      cases heq
      exact List.mem_cons_of_mem _ (ih hsplit j hj)

theorem startTag (h : b.Sound) (e : Element) (selfClosing : Bool) :
    (b.startTag e selfClosing).Sound := by
  have hremaining : ({ b with openElements := dropClosed b.document e.name b.openElements } :
      Builder).Sound := h.of_subset rfl (dropClosed_subset _ _ _)
  have hadded := hremaining.addNode (.element e)
  unfold Builder.startTag
  -- the new element is open behind its tag or closed at once
  split
  · refine ⟨hadded.wellFormed, hadded.branch, fun id hid => ?_⟩
    rcases List.mem_cons.1 hid with rfl | hid
    · rw [Document.isElement, Document.element?, kind?_addNode]
      rfl
    · exact hadded.isElement id hid
  · exact hadded

theorem endTag (h : b.Sound) (name : String) : (b.endTag name).Sound := by
  unfold Builder.endTag
  split
  · exact h.of_subset rfl fun _ => id
  · split
    · next hsplit => exact h.of_subset rfl (splitAtName_subset _ _ _ hsplit)
    · exact h.of_subset rfl fun _ => id

/-- A text may be changed for another text. -/
theorem updateText (h : b.Sound) {id : NodeId} {old : String}
    (hold : b.document.kind? id = some (.text old)) (text : String) :
    ({ b with document := b.document.update id fun n => { n with kind := .text text } } :
      Builder).Sound := by
  have hkind : ∀ j, j ≠ id →
      (b.document.update id fun n => { n with kind := .text text }).kind? j =
        b.document.kind? j := by
    intro j hj
    rw [Document.kind?, Document.getElem?_update, if_neg (Ne.symm hj), Document.kind?]
  -- the text is neither an element nor the document itself, so the invariant says nothing of it
  have hne : ∀ j, b.document.isElement j = true → j ≠ id := by
    rintro j hj rfl
    simp [Document.isElement, Document.element?, hold, Kind.element?] at hj
  have hroot : Document.root ≠ id := by
    rintro rfl
    rw [h.wellFormed.kind_root] at hold
    cases hold
  have helement : ∀ j, b.document.isElement j = true →
      (b.document.update id fun n => { n with kind := .text text }).isElement j = true := by
    intro j hj
    exact (Document.isElement_congr (hkind j (hne j hj))).trans hj
  constructor
  · refine h.wellFormed.of_same_links ?_ (Document.parent?_setKind _ id _)
      (Document.children_setKind _ id _)
    rw [hkind _ hroot]
    exact h.wellFormed.kind_root
  · intro j hj
    rw [Document.children_setKind] at hj
    exact (h.branch j hj).imp_right (helement j)
  · intro j hj
    exact helement j (h.isElement j hj)

/-- A text goes into a new node below the container, or into a text that stands there already. -/
theorem appendText (h : b.Sound) (text : String) :
    ({ b with document := b.document.appendText b.container text } : Builder).Sound := by
  have hcases := Document.appendText_cases b.document b.container text
  rcases hcases with ⟨-, heq⟩ | ⟨last, old, -, hkind, heq⟩ | ⟨-, heq⟩
  · rw [heq]
    exact h
  · rw [heq]
    exact h.updateText hkind (old ++ text)
  · rw [heq]
    exact h.addNode (.text text)

theorem addText (h : b.Sound) (text : String) : (b.addText text).Sound :=
  h.appendText _

theorem feed (h : b.Sound) (token : Token) : (b.feed token).Sound := by
  cases token with
  | startTag name attrs selfClosing => exact h.startTag ⟨name, attrs⟩ selfClosing
  | endTag name => exact h.endTag name
  | text s => exact h.addText s
  | comment s => exact h.addNode (.comment s)
  | doctype name => exact h.addNode (.doctype name)

end Sound

end Builder

namespace Parse

theorem builder_accept (p : Parse) (token : Token) :
    (p.accept token).builder = p.builder.feed token := by
  unfold accept
  cases token with
  | startTag name attrs selfClosing =>
    simp only
    split <;> rfl
  | _ => rfl

theorem sound_foldl_accept (tokens : List Token) (p : Parse) (h : p.builder.Sound) :
    (tokens.foldl accept p).builder.Sound := by
  refine List.foldlRecOn (motive := fun q : Parse => q.builder.Sound) tokens _ h ?_
  intro q hq token _
  rw [builder_accept]
  exact hq.feed token

theorem sound_foldl_feed (cs : List Char) (p : Parse) (h : p.builder.Sound) :
    (cs.foldl feed p).builder.Sound :=
  List.foldlRecOn (motive := fun q : Parse => q.builder.Sound) cs _ h fun _ hq _ _ =>
    sound_foldl_accept _ _ hq

theorem sound_finish (p : Parse) (h : p.builder.Sound) : p.finish.Sound := by
  have hall := sound_foldl_accept p.tokenizer.finish p h
  unfold finish Builder.finish
  exact hall.of_subset rfl (by simp)

end Parse

/-- What a parse has built, at the end of the text. -/
theorem parse_sound (text : String) :
    (parse text).document.WellFormed ∧ (parse text).document.OnlyElementsBranch := by
  have hall := Parse.sound_foldl_feed (Text.normalizeNewlines text.toList) .start
    Builder.Sound.start
  have hend := Parse.sound_finish _ hall
  unfold parse
  exact ⟨hend.wellFormed, hend.branch⟩

/-- Every parsed document is well-formed. -/
theorem parse_wellFormed (text : String) : (parse text).document.WellFormed :=
  (parse_sound text).1

/-- In every parsed document only the document and elements have something inside. -/
theorem parse_onlyElementsBranch (text : String) : (parse text).document.OnlyElementsBranch :=
  (parse_sound text).2

end Stencil.Html
