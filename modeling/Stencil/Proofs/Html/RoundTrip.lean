import Stencil.Proofs.Directive.Histories
import Stencil.Proofs.Html.Escaping
import Stencil.Proofs.Html.Rereading
namespace Stencil

open Stencil.Data (Value)
open Stencil.Html

/-! # Round trip

A rendered document is read again as what it is: its tree, with texts side by side made one, without
what is inside of elements without content, and with the attributes of every element in the order of
their names. What a template and its data put into the document as text stays text.
-/

/-! ## Carriage returns -/

namespace Html

theorem IsNamePart.ne_return {c : Char} (h : IsNamePart c) : c ≠ '\r' := by
  rintro rfl
  exact absurd h.2.1 (by decide)

theorem return_notMem_name {cs : List Char} (h : ∀ c ∈ cs, IsTagPart c) : '\r' ∉ cs :=
  fun hc => (h _ hc).1.ne_return rfl

theorem return_notMem_tags {e : Element} (h : e.IsSpelled)
    (hvalues : ∀ a ∈ e.attrs.entries, '\r' ∉ a.2.toList) :
    '\r' ∉ writeStart e ∧ '\r' ∉ writeEnd e := by
  have hname := return_notMem_name h.name.parts
  have hattrs : ∀ a ∈ e.attrs.entries, '\r' ∉ writeAttribute a := by
    intro a ha
    have hkey := return_notMem_name (h.attributes a ha).parts
    have hvalue := (return_notMem_escape (hvalues a ha)).2
    simp [writeAttribute, escapeValue, hkey, hvalue]
  constructor
  · simp only [writeStart, List.cons_append, List.mem_cons, List.mem_append, List.mem_flatMap,
      List.not_mem_nil, not_or, not_exists, not_and]
    exact ⟨by decide, ⟨hname, hattrs⟩, by decide, not_false⟩
  · simp [writeEnd, hname]

end Html

namespace Tree

open Tokenizer

/-- No carriage return is written. -/
theorem return_notMem_markup (t : Tree Kind) : ∀ {k : Kind}, Regular Readable t →
    k.Allows Readable t.label → ∀ raw, '\r' ∉ t.markup raw := by
  induction t with
  | node l ts ih =>
    intro k hregular hallows raw
    obtain ⟨⟨⟨hspelled, -⟩, hreturn, -⟩, hallowed⟩ := hallows
    obtain ⟨hnode, hts⟩ := regular_node_iff.1 hregular
    cases l with
    | document => exact False.elim hallowed
    | text s =>
      have hreturn : '\r' ∉ s.toList := hreturn
      rw [markup_text]
      split
      · exact hreturn
      · exact (return_notMem_escape hreturn).1
    | comment s =>
      have hspelled : IsCommentText s.toList := hspelled
      rw [markup]
      simp [writeComment, hspelled.noReturn]
    | doctype name =>
      have hname : '\r' ∉ name.toList := fun hc => (hspelled _ hc).ne_return rfl
      rw [markup]
      show '\r' ∉ "<!DOCTYPE ".toList ++ name.toList ++ ['>']
      have hbegin : '\r' ∉ "<!DOCTYPE ".toList := by decide
      simp only [List.mem_append, not_or]
      exact ⟨⟨hbegin, hname⟩, by decide⟩
    | element e =>
      obtain ⟨hstart, hend⟩ := return_notMem_tags hspelled hreturn
      rw [markup_element]
      split
      · exact hstart
      · have hnewline : '\r' ∉ newlineOf e ts := by
          rcases newlineOf_cases e ts with h | ⟨h, -⟩ <;> rw [h] <;> decide
        simp only [List.mem_append, List.mem_flatMap, not_or, not_exists, not_and]
        refine ⟨⟨⟨hstart, hnewline⟩, ?_⟩, hend⟩
        intro t ht
        exact ih t ht (hts t ht) (hnode.allows t ht) _

/-- The markup of a document is read as its tokens. -/
theorem tokens_document {ts : List (Tree Kind)} (h : Regular Readable (node .document ts)) :
    Tokenizer.start.tokens ((node .document ts).markup false) =
      (node .document ts).inOrder.events := by
  have hread := tokens_contents (fun t _ => readsMarkup t) h (by decide) flushes_nil nofun
  have hnode : (node .document ts).inOrder = node .document (ts.map inOrder) := map_node ..
  have hend : (between []).tokens [] = [] := rfl
  rw [List.append_nil, hend, List.append_nil] at hread
  rw [hnode, markup, events, List.flatMap_map]
  exact hread

end Tree

namespace Html

/-- The attributes in order matter neither to what may stand where nor to texts. -/
theorem keepsSpelling_inOrder : KeepsSpelling Element.inOrder where
  name := fun _ => rfl
  spelled := fun e h =>
    ⟨h.name, fun a ha => h.attributes a ((List.mergeSort_perm e.attrs.entries _).mem_iff.1 ha)⟩

/-- With its attributes in order a merged tree is regular, so the builder makes it of its tokens. -/
theorem regular_inOrder {t : Tree Kind} (hedges : t.Edges Kind.Admits)
    (hlegible : t.merged.Edges Legible) : Regular TextsHaveNoReturn t.merged.inOrder := by
  have hrevises : ∀ k : Kind, k.Revises (k.mapElement Element.inOrder) := fun k =>
    ⟨_, keepsSpelling_inOrder, rfl⟩
  have hordered : t.inOrder.Edges Kind.Admits :=
    hedges.map fun k c hkc => hkc.revise (hrevises k) (hrevises c)
  have hreturn : t.inOrder.merged.Edges TextsHaveNoReturn := by
    rw [Tree.merged_inOrder]
    refine hlegible.map ?_
    rintro k c ⟨hc, -⟩
    cases c with
    | text s => exact hc
    | _ => trivial
  rw [← Tree.merged_inOrder]
  exact (Tree.regular_merged hordered hreturn).mono fun _ _ h => h.2

/-- The markup of a tree whose merged tree is legible is read as that. -/
theorem tree_parse_markup {text : String} {t : Tree Kind} (hlabel : t.label = .document)
    (hedges : t.Edges Kind.Admits) (hlegible : t.merged.Edges Legible)
    (htext : text.toList = t.markup false) :
    (parse text).document.tree = t.merged.inOrder := by
  have hregular := Tree.regular_merged hedges hlegible
  have hordered := regular_inOrder hedges hlegible
  rw [← Tree.markup_merged hedges] at htext
  have htop : t.merged.label = .document := by rw [Tree.label_merged, hlabel]
  obtain ⟨ts, hmerged⟩ : ∃ ts, t.merged = .node .document ts := by
    generalize t.merged = u at htop
    obtain ⟨k, ts⟩ := u
    obtain rfl : k = .document := htop
    exact ⟨ts, rfl⟩
  rw [hmerged] at hregular hordered htext ⊢
  have hreturn : '\r' ∉ text.toList := by
    obtain ⟨hnode, hts⟩ := regular_node_iff.1 hregular
    rw [htext, Tree.markup]
    simp only [List.mem_flatMap, not_exists, not_and]
    exact fun u hu => u.return_notMem_markup (hts u hu) (hnode.allows u hu) false
  have hnode : (Tree.node .document ts).inOrder = .node .document (ts.map Tree.inOrder) :=
    Tree.map_node ..
  rw [hnode] at hordered ⊢
  have hlaid := (isLaid_build (Tree.node Kind.document (ts.map Tree.inOrder)).events).1
  rw [TreeBuilder.build_events hordered] at hlaid
  rw [document_parse, normalizeNewlines_eq_self hreturn, htext, Tree.tokens_document hregular,
    hnode]
  exact hlaid.tree_eq

end Html

/-- What is rendered is the markup of the document that the passes leave. -/
theorem toList_render (o : Options) (template : String) (data : Value) :
    (render o template data).toList = (renderDocument o template data).1.tree.markup false :=
  (Directive.extends_finalize _ _
    (Directive.extends_process _ _ (parse_wellFormed template)).wellFormed).wellFormed.toList_serialize

/-- A rendered document is read again as its tree, if its texts and values have no carriage return,
text that is written as it is is kept by the reading of its element, and no null character is in a
value or in text that the reading of its element would replace it in. -/
theorem tree_parse_render (o : Options) (template : String) (data : Value)
    (h : (renderDocument o template data).1.tree.merged.Edges Legible) :
    (parse (render o template data)).document.tree =
      (renderDocument o template data).1.tree.merged.inOrder := by
  obtain ⟨hlabel, hedges⟩ := Directive.edges_renderDocument o template data
  exact tree_parse_markup hlabel hedges h (toList_render o template data)

/-- Markup as text of a paragraph and of a text area, and a comparison in a script. -/
theorem tree_parse_render_comparison :
    let template :=
      "<p value=\"x\"></p><textarea value=\"x\"></textarea><script value=\"s\"></script>"
    let data := Value.object [("x", .string "</p><b>&lt;"), ("s", .string "a<b")]
    let tree := (renderDocument .default template data).1.tree
    tree.merged.Edges Legible ∧
      (parse (render .default template data)).document.tree = tree.merged.inOrder := by
  intro template data tree
  have htree : tree = .node .document [
      .node (.element ⟨"p", Attributes.empty.addNew "value" "x"⟩) [.node (.text "</p><b>&lt;") []],
      .node (.element ⟨"textarea", Attributes.empty.addNew "value" "x"⟩)
        [.node (.text "</p><b>&lt;") []],
      .node (.element ⟨"script", Attributes.empty.addNew "value" "s"⟩)
        [.node (.text "a<b") []]] := by
    decide +kernel
  have hvoid : ∀ name ∈ ["", "p", "textarea", "script"], (tagRule name).isVoid = false := by
    decide +kernel
  have hlegible : tree.merged.Edges Legible := by
    rw [htree]
    simp (disch := decide) only [Tree.merged_node, hvoid, List.map_cons, List.map_nil,
      Tree.mergeTexts, List.foldr, Tree.glue, Tree.edges_node_iff, Tree.label_node,
      List.forall_mem_cons, Bool.false_eq_true, if_false]
    decide +kernel
  exact ⟨hlegible, tree_parse_render _ _ _ hlegible⟩

/-- A rendered document is read again as its tree by the characters of its texts and values alone:
no carriage return, no null character where the reading would replace it, and in text that is
written as it is no `<` before a slash or an exclamation mark, or, where that is read as markup, no
`<` and no `&`. -/
theorem tree_parse_render_of_plain (o : Options) (template : String) (data : Value)
    (h : (renderDocument o template data).1.tree.merged.Edges Plain) :
    (parse (render o template data)).document.tree =
      (renderDocument o template data).1.tree.merged.inOrder := by
  obtain ⟨hlabel, hedges⟩ := Directive.edges_renderDocument o template data
  exact tree_parse_markup hlabel hedges (h.mono legible_of_plain) (toList_render o template data)

/-! ## What is not read again -/

/-- Whether a node is a text, or an element with a value, of the given wording. -/
def Html.Kind.carries (s : String) : Kind → Bool
  | .text s' => s' == s
  | .element e => e.attrs.entries.any (·.2 == s)
  | .document | .doctype _ | .comment _ => false

theorem Html.Kind.carries_inOrder (s : String) (k : Kind) :
    (k.mapElement Element.inOrder).carries s = k.carries s := by
  cases k with
  | element e => exact (List.mergeSort_perm e.attrs.entries _).any_eq
  | _ => rfl

/-- A rendered document is not read again as its tree, though no carriage return is in it. -/
def ReadsOtherwise (o : Options) (template : String) (data : Value) : Prop :=
  (∀ k ∈ (renderDocument o template data).1.tree.labels, k.HasNoReturn) ∧
    (parse (render o template data)).document.tree ≠
      (renderDocument o template data).1.tree.merged.inOrder

/-- The two trees may be told apart by the nodes of one wording. -/
theorem readsOtherwise_of_carries {o : Options} {template : String} {data : Value}
    {t u : Tree Kind} (s : String) (htree : (renderDocument o template data).1.tree = t)
    (hparse : (parse (render o template data)).document.tree = u)
    (hreturn : ∀ k ∈ t.labels, k.HasNoReturn)
    (hne : u.map (Kind.carries s) ≠ t.merged.map (Kind.carries s)) :
    ReadsOtherwise o template data := by
  have hinOrder : t.merged.inOrder.map (Kind.carries s) = t.merged.map (Kind.carries s) := by
    rw [Tree.inOrder, Tree.map_map]
    exact congrArg (fun f => t.merged.map f) (funext (Kind.carries_inOrder s))
  unfold ReadsOtherwise
  rw [htree, hparse]
  refine ⟨hreturn, ?_⟩
  rintro rfl
  exact hne hinOrder

/-- An end tag in the text of a script ends the script, and null characters are replaced in a text
area and in a value. -/
theorem readsOtherwise_script :
    ReadsOtherwise .default "<script value=\"x\"></script>"
      (.object [("x", .string "</script><b>")]) ∧
    ReadsOtherwise .default "<textarea value=\"x\"></textarea>"
      (.object [("x", .string "\x00")]) ∧
    ReadsOtherwise ⟨true, "", "a \x00"⟩ "<p if=\"@\"></p>" (.object []) := by
  have hvoid : ∀ name ∈ ["", "script", "textarea", "p"], (tagRule name).isVoid = false := by
    decide +kernel
  let script : Element := ⟨"script", Attributes.empty.addNew "value" "x"⟩
  let area : Element := ⟨"textarea", Attributes.empty.addNew "value" "x"⟩
  refine ⟨readsOtherwise_of_carries "</script><b>"
      (t := .node .document [.node (.element script) [.node (.text "</script><b>") []]])
      (u := .node .document [.node (.element script) [], .node (.element ⟨"b", .empty⟩) []])
      (by decide +kernel) (by decide +kernel) ?_ ?_,
    readsOtherwise_of_carries "\x00"
      (t := .node .document [.node (.element area) [.node (.text "\x00") []]])
      (u := .node .document [.node (.element area) [.node (.text "\uFFFD") []]])
      (by decide +kernel) (by decide +kernel) ?_ ?_,
    readsOtherwise_of_carries "a \x00"
      (t := .node .document [.node (.element ⟨"p", Attributes.empty.addNew "class" "a \x00"⟩) []])
      (u := .node .document
        [.node (.element ⟨"p", Attributes.empty.addNew "class" "a \uFFFD"⟩) []])
      (by decide +kernel) (by decide +kernel) ?_ ?_⟩
  -- once the recursions are opened, labels and trees of truth values are left
  all_goals
    simp (disch := decide) only [Tree.labels_node, List.flatMap_cons, List.flatMap_nil,
      Tree.merged_node, hvoid, List.map_cons, List.map_nil, Tree.mergeTexts, List.foldr, Tree.glue,
      Tree.map_node, Bool.false_eq_true, if_false]
    decide +kernel

end Stencil
