import Stencil.Proofs.Html.Built
import Stencil.Proofs.Html.Growing
namespace Stencil.Html

/-! # Tree construction without a store

The builder as a machine on growing trees, and the proof that the builder with its store does what
this machine does: its store is always the growing tree, with the nodes numbered in document order.
-/

/-- The name of an element, empty for other nodes. -/
def Kind.name (k : Kind) : String :=
  match k.element? with
  | some e => e.name
  | none => ""

/-- Whether a node is a text. -/
def Kind.isText : Kind → Bool
  | .text _ => true
  | _ => false

/-- A tree under construction and the errors so far. -/
structure TreeBuilder where
  tree : Growing Kind
  errors : Array TreeError

namespace TreeBuilder

/-- Nothing built yet. -/
def start : TreeBuilder :=
  ⟨⟨[], []⟩, #[]⟩

/-- The number of open elements that end at the start of an element of this name. -/
def closedCount (g : Growing Kind) (name : String) : Nat :=
  (g.opened.takeWhile fun o => (tagRule o.1.name).isClosedBy name).length

/-- A start tag. -/
def startTag (b : TreeBuilder) (e : Element) (selfClosing : Bool) : TreeBuilder :=
  let g := Growing.closeMany (closedCount b.tree e.name) b.tree
  if Builder.staysOpen e.name selfClosing then ⟨g.push (.element e), b.errors⟩
  else ⟨g.add (.node (.element e) []), b.errors⟩

/-- The errors for elements of these names that something else ended. -/
def unclosed (names : List String) : List TreeError :=
  (names.filter fun name => !((tagRule name).isVoid || (tagRule name).closedByParent)).map
    TreeError.unclosed

/-- An end tag. -/
def endTag (b : TreeBuilder) (name : String) : TreeBuilder :=
  if (tagRule name).isVoid then ⟨b.tree, b.errors.push (.voidEnd name)⟩
  else match b.tree.opened.findIdx? fun o => o.1.name = name with
    | some n =>
      ⟨Growing.closeMany (n + 1) b.tree,
        b.errors ++ unclosed ((b.tree.opened.take n).map fun o => o.1.name)⟩
    | none => ⟨b.tree, b.errors.push (.strayEnd name)⟩

/-- Whether the end of a line at the start of the next text is dropped. -/
def dropsNewline (g : Growing Kind) : Bool :=
  match g.opened with
  | [] => false
  | (k, ts) :: _ => ts.isEmpty && (tagRule k.name).dropsNewline

/-- Trees with a text behind them, which goes into the last of them if that is a text. -/
def withText (text : String) (ts : List (Tree Kind)) : List (Tree Kind) :=
  if text = "" then ts
  else match ts.getLast? with
    | some (.node (.text old) us) => ts.dropLast ++ [.node (.text (old ++ text)) us]
    | _ => ts ++ [.node (.text text) []]

/-- A text. -/
def addText (b : TreeBuilder) (text : String) : TreeBuilder :=
  let kept :=
    if dropsNewline b.tree then String.ofList (Text.dropNewline text.toList) else text
  ⟨b.tree.change (withText kept), b.errors⟩

/-- One token. -/
def feed (b : TreeBuilder) : Token → TreeBuilder
  | .startTag name attrs selfClosing => b.startTag ⟨name, attrs⟩ selfClosing
  | .endTag name => b.endTag name
  | .text s => b.addText s
  | .comment s => ⟨b.tree.add (.node (.comment s) []), b.errors⟩
  | .doctype name => ⟨b.tree.add (.node (.doctype name) []), b.errors⟩

/-- The end of the tokens, which ends all open elements. -/
def finish (b : TreeBuilder) : TreeBuilder :=
  ⟨Growing.closeMany b.tree.opened.length b.tree,
    b.errors ++ unclosed (b.tree.opened.map fun o => o.1.name)⟩

/-- The result of a whole sequence of tokens. -/
def build (tokens : List Token) : TreeBuilder :=
  (tokens.foldl feed start).finish

end TreeBuilder

namespace TreeBuilder

@[simp] theorem withText_empty (ts : List (Tree Kind)) : withText "" ts = ts := by
  simp [withText]

/-- A text behind another one goes into that. -/
theorem withText_text {text : String} (h : text ≠ "") (ts us : List (Tree Kind)) (old : String) :
    withText text (ts ++ [.node (.text old) us]) = ts ++ [.node (.text (old ++ text)) us] := by
  simp [withText, h]

/-- A text behind no other one has a node of its own. -/
theorem withText_append {text : String} (h : text ≠ "") {ts : List (Tree Kind)}
    (hlast : ∀ t ∈ ts.getLast?, t.label.isText = false) :
    withText text ts = ts ++ [.node (.text text) []] := by
  unfold withText
  rw [if_neg h]
  split
  · next heq => exact absurd (hlast _ heq) (by simp [Kind.isText])
  · rfl

end TreeBuilder

namespace Builder

/-! ## The builder follows the machine -/

/-- The store is the growing tree, the stack are its open nodes, and the errors agree. -/
structure Follows (b : Builder) (t : TreeBuilder) (g : Growing Spot) : Prop where
  supports : b.document.Supports g
  tree : g.map Spot.kind = t.tree
  openElements : b.openElements = g.opened.map fun o => o.1.id
  errors : b.errors = t.errors

variable {b : Builder} {t : TreeBuilder} {g : Growing Spot}

theorem follows_start : Follows start .start ⟨[], []⟩ where
  supports := ⟨⟨rfl, by simp⟩, rfl⟩
  tree := rfl
  openElements := rfl
  errors := rfl

namespace Follows

theorem container (h : Follows b t g) : b.container = Document.innermost g.opened := by
  unfold Builder.container Document.innermost
  rw [h.openElements, List.head?_map]

theorem opened_eq (h : Follows b t g) : t.tree.opened.map Prod.fst = g.opened.map (·.1.kind) := by
  rw [← h.tree]
  simp [Growing.map]

theorem nameOf_eq (h : Follows b t g) :
    ∀ o ∈ g.opened, nameOf b.document o.1.id = o.1.kind.name := by
  intro o ho
  unfold nameOf Document.element? Kind.name
  rw [h.supports.supports.kind?_eq o ho]
  rfl

theorem names_eq (h : Follows b t g) :
    b.openElements.map (nameOf b.document) = t.tree.opened.map fun o => o.1.name := by
  have hnames := congrArg (List.map Kind.name) h.opened_eq
  simp only [List.map_map] at hnames
  rw [h.openElements, List.map_map]
  exact (List.map_congr_left h.nameOf_eq).trans hnames.symm

/-- The innermost open elements may be finished. -/
theorem closeMany (h : Follows b t g) (n : Nat) {xs ys : Array TreeError} (he : xs = ys) :
    Follows ⟨b.document, b.openElements.drop n, xs⟩ ⟨Growing.closeMany n t.tree, ys⟩
      (Growing.closeMany n g) where
  supports := h.supports.closeMany n
  tree := by rw [Growing.map_closeMany, h.tree]
  openElements := by
    have := congrArg (List.map Spot.id) (Growing.opened_closeMany n g)
    simp only [List.map_map, List.map_drop] at this
    rw [h.openElements]
    exact this.symm
  errors := he

/-- A node that is added is open. -/
theorem push (h : Follows b t g) (k : Kind) :
    Follows { (b.addNode k).1 with openElements := (b.addNode k).2 :: b.openElements }
      ⟨t.tree.push k, t.errors⟩ (g.push ⟨b.document.size, k⟩) where
  supports := by
    have := h.supports.push k
    rwa [← h.container] at this
  tree := by rw [Growing.map_push, h.tree]
  openElements := by
    rw [h.openElements]
    rfl
  errors := h.errors

/-- A node that is added is finished. -/
theorem add (h : Follows b t g) (k : Kind) :
    Follows (b.addNode k).1 ⟨t.tree.add (.node k []), t.errors⟩
      (g.add (.node ⟨b.document.size, k⟩ [])) :=
  (h.push k).closeMany 1 h.errors

/-! ### Tags -/

/-- Elements end from the inside out for as long as their names say so. -/
theorem dropClosed_eq (d : Document) (name : String) (ids : List NodeId) :
    dropClosed d name ids = ids.drop
      ((ids.map (nameOf d)).takeWhile fun n => (tagRule n).isClosedBy name).length := by
  induction ids with
  | nil => rfl
  | cons id rest ih =>
    unfold dropClosed
    rw [List.map_cons, List.takeWhile_cons]
    split
    · exact ih
    · rfl

theorem closedCount_eq (tree : Growing Kind) (name : String) :
    TreeBuilder.closedCount tree name = ((tree.opened.map fun o => o.1.name).takeWhile
      fun n => (tagRule n).isClosedBy name).length := by
  rw [List.takeWhile_map, List.length_map]
  rfl

theorem startTag (h : Follows b t g) (e : Element) (selfClosing : Bool) :
    ∃ g', Follows (b.startTag e selfClosing) (t.startTag e selfClosing) g' := by
  have hdrop : dropClosed b.document e.name b.openElements =
      b.openElements.drop (TreeBuilder.closedCount t.tree e.name) := by
    rw [dropClosed_eq, h.names_eq, closedCount_eq]
  have hclosed := h.closeMany (TreeBuilder.closedCount t.tree e.name) h.errors
  rw [← hdrop] at hclosed
  unfold Builder.startTag TreeBuilder.startTag
  simp only
  split
  · exact ⟨_, hclosed.push (.element e)⟩
  · exact ⟨_, hclosed.add (.element e)⟩

/-- The innermost element of a name, and what is inside and around it. -/
theorem splitAtName_eq (d : Document) (name : String) (ids : List NodeId) :
    splitAtName d name ids = ((ids.map (nameOf d)).findIdx? fun n => n = name).map
      fun n => (ids.take n, ids.drop (n + 1)) := by
  induction ids with
  | nil => rfl
  | cons id rest ih =>
    unfold splitAtName
    rw [List.map_cons, List.findIdx?_cons]
    by_cases hid : nameOf d id = name
    · simp [hid]
    · rw [if_neg hid, ih]
      simp [hid, Function.comp_def]

theorem report_errors (b : Builder) (ids : List NodeId) :
    (b.report ids).errors =
      b.errors ++ TreeBuilder.unclosed (ids.map (nameOf b.document)) := rfl

theorem endTag (h : Follows b t g) (name : String) :
    ∃ g', Follows (b.endTag name) (t.endTag name) g' := by
  unfold Builder.endTag TreeBuilder.endTag
  split
  · exact ⟨g, h.supports, h.tree, h.openElements, by rw [h.errors]⟩
  have hidx : (t.tree.opened.findIdx? fun o => o.1.name = name) =
      ((b.openElements.map (nameOf b.document)).findIdx? fun n => n = name) := by
    rw [h.names_eq, List.findIdx?_map]
    rfl
  rw [splitAtName_eq, hidx]
  cases (b.openElements.map (nameOf b.document)).findIdx? fun n => n = name with
  | none => exact ⟨g, h.supports, h.tree, h.openElements, by simp [h.errors]⟩
  | some n =>
    refine ⟨_, h.closeMany (n + 1) ?_⟩
    rw [report_errors, h.errors, List.map_take, h.names_eq, List.map_take]

/-! ### Texts -/

theorem dropsNewline_eq (h : Follows b t g) :
    b.dropsNewline = TreeBuilder.dropsNewline t.tree := by
  have hs := h.supports.supports
  rw [← h.tree]
  unfold Builder.dropsNewline TreeBuilder.dropsNewline
  rw [h.openElements]
  cases hg : g.opened with
  | nil => simp [Growing.map, hg]
  | cons o rest =>
    have hname := h.nameOf_eq o (by simp [hg])
    have hchildren := hs.content.1
    rw [hg] at hs hchildren
    simp only [Document.innermost, List.head?_cons, Option.map_some, Option.getD_some,
      Growing.content, List.append_nil] at hchildren
    simp only [Growing.map, hg, List.map_cons, hname, hchildren]
    cases o.2 <;> rfl

/-- A text goes where the machine puts it. -/
theorem appendText (h : Follows b t g) (text : String) :
    ∃ g', Follows { b with document := b.document.appendText b.container text }
      ⟨t.tree.change (TreeBuilder.withText text), t.errors⟩ g' := by
  have hcontent : t.tree.content = g.content.map (Tree.map Spot.kind) := by
    rw [← h.tree, Growing.content_map]
  obtain ⟨hchildren, hholds⟩ := h.supports.supports.content
  have hchildren : b.document.children b.container = g.content.map Tree.id := by
    rw [h.container]
    simpa using hchildren
  by_cases hempty : text = ""
  · subst hempty
    rw [Growing.change_eq_self (TreeBuilder.withText_empty _)]
    exact ⟨g, h⟩
  -- a text behind no other one is added like every other node
  have hnew (hlast : ∀ u ∈ t.tree.content.getLast?, u.label.isText = false) :
      ∃ g', Follows { b with document := b.document.addText b.container text }
        ⟨t.tree.change (TreeBuilder.withText text), t.errors⟩ g' := by
    have hadd := h.add (.text text)
    rw [Growing.add, ← Growing.change_congr (TreeBuilder.withText_append hempty hlast)] at hadd
    exact ⟨_, hadd⟩
  unfold Document.appendText
  rw [if_neg hempty, hchildren]
  rcases List.eq_nil_or_concat g.content with hnil | ⟨ts, u, hlast⟩
  · rw [hnil]
    exact hnew (by simp [hcontent, hnil])
  · rw [List.concat_eq_append] at hlast
    obtain ⟨⟨i, k⟩, us⟩ := u
    have hkind : b.document.kind? i = some k :=
      Document.kind?_eq (hholds (.node ⟨i, k⟩ us) (hlast ▸ by simp)).top
    rw [hlast]
    simp only [List.map_append, List.map_cons, List.map_nil, List.getLast?_concat, Tree.id_node,
      hkind]
    by_cases hk : k.isText = true
    · cases k with
      | text old =>
        refine ⟨_, h.supports.updateText hlast (old ++ text), ?_, ?_, h.errors⟩
        · rw [← h.tree]
          have hmap := Growing.map_change Spot.kind g
            (F := fun _ => ts ++ [.node ⟨i, .text (old ++ text)⟩ us])
            (G := fun _ => ts.map Tree.kinds ++ [.node (.text (old ++ text)) (us.map Tree.kinds)])
          rw [hmap fun _ => by simp [Tree.kinds]]
          refine Growing.change_congr ?_
          rw [Growing.content_map, hlast, List.map_append, List.map_singleton, Tree.map_node,
            TreeBuilder.withText_text hempty]
          rfl
        · have hids := congrArg (List.map Spot.id) (Growing.opened_change g fun _ =>
            ts ++ [.node ⟨i, .text (old ++ text)⟩ us])
          rw [List.map_map, List.map_map] at hids
          rw [h.openElements]
          exact hids.symm
      | _ => cases hk
    · have := hnew (by simp [hcontent, hlast, hk])
      cases k with
      | text old => exact absurd rfl hk
      | _ => exact this

theorem addText (h : Follows b t g) (text : String) :
    ∃ g', Follows (b.addText text) (t.addText text) g' := by
  unfold Builder.addText TreeBuilder.addText
  rw [h.dropsNewline_eq]
  exact h.appendText _

theorem feed (h : Follows b t g) (token : Token) :
    ∃ g', Follows (b.feed token) (t.feed token) g' := by
  cases token with
  | startTag name attrs selfClosing => exact h.startTag ⟨name, attrs⟩ selfClosing
  | endTag name => exact h.endTag name
  | text s => exact h.addText s
  | comment s => exact ⟨_, h.add (.comment s)⟩
  | doctype name => exact ⟨_, h.add (.doctype name)⟩

theorem foldl_feed (h : Follows b t g) (tokens : List Token) :
    ∃ g', Follows (tokens.foldl Builder.feed b) (tokens.foldl TreeBuilder.feed t) g' := by
  induction tokens generalizing b t g with
  | nil => exact ⟨g, h⟩
  | cons token tokens ih =>
    obtain ⟨g', h'⟩ := h.feed token
    exact ih h'

theorem finish (h : Follows b t g) : ∃ g', Follows b.finish t.finish g' := by
  have hlength : b.openElements.length = t.tree.opened.length := by
    simpa using congrArg List.length h.names_eq
  have herrors : (b.report b.openElements).errors = t.finish.errors := by
    rw [report_errors, h.errors, h.names_eq]
    rfl
  have hclosed := h.closeMany t.tree.opened.length herrors
  rw [← hlength, List.drop_length] at hclosed
  rw [hlength] at hclosed
  exact ⟨_, hclosed⟩

end Follows

end Builder

/-- The machine leaves no element open. -/
theorem TreeBuilder.opened_finish (b : TreeBuilder) : b.finish.tree.opened = [] := by
  have hnames : b.finish.tree.opened.map Prod.fst = [] := by
    rw [TreeBuilder.finish, Growing.opened_closeMany]
    simp
  exact List.map_eq_nil_iff.1 hnames

/-- The builder makes the tree that the machine makes, numbered in document order. -/
theorem isLaid_build (tokens : List Token) :
    (Builder.build tokens).document.IsLaid
      (.node .document (TreeBuilder.build tokens).tree.top) ∧
    (Builder.build tokens).errors = (TreeBuilder.build tokens).errors := by
  obtain ⟨g, hg⟩ := Builder.follows_start.foldl_feed tokens
  obtain ⟨g', h⟩ := hg.finish
  have hopened : g'.opened = [] := by
    have := congrArg List.length (h.opened_eq.symm.trans
      (congrArg (List.map Prod.fst) (TreeBuilder.opened_finish _)))
    simpa using this
  obtain ⟨hholds, hids⟩ := h.supports.holds hopened
  refine ⟨⟨_, hholds, hids, ?_⟩, h.errors⟩
  have htop : (TreeBuilder.build tokens).tree.top = g'.top.map Tree.kinds := by
    rw [TreeBuilder.build, ← h.tree]
    rfl
  rw [Tree.kinds_node, htop]

end Stencil.Html
