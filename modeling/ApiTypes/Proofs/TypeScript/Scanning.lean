import ApiTypes.Proofs.Text.Quoted
import ApiTypes.Proofs.TypeScript.Comments

/-!
# Operators outside brackets

A program is read character by character, with the brackets that are open, and past what stands in
literals and comments. So read, a type expression shows whether it has an operator outside all of its
brackets. A text is known by what reading it does, wherever in code it stands.
-/

namespace ApiTypes.TypeScript

/-! ## Reading -/

/-- Where a character of a program stands: in code, after a slash in code, in a comment, in a literal
between quotes, or after a backslash in one. -/
inductive Place where
  | code
  | slash
  | comment
  | literal (quote : Char)
  | escape (quote : Char)
  deriving DecidableEq, Repr

/-- What is known of a program up to one of its characters: where that stands, the brackets that are
still to come for those that are open, the innermost first, and whether there was an operator outside
all brackets. -/
structure Cursor where
  place : Place
  awaited : List Char
  operator : Bool
  deriving DecidableEq, Repr

def isQuote (c : Char) : Bool :=
  c == '"' || c == '\x27' || c == '\x60'

def isOperator (c : Char) : Bool :=
  c == '|' || c == '&'

def closing? : Char → Option Char
  | '(' => some ')'
  | '[' => some ']'
  | '\x7b' => some '\x7d'
  | '<' => some '>'
  | _ => none

def isClosing (c : Char) : Bool :=
  c == ')' || c == ']' || c == '\x7d' || c == '>'

/-- Reads a character of code. A bracket has to close the innermost one that is open. -/
def Cursor.codeStep (cursor : Cursor) (c : Char) : Option Cursor :=
  if isQuote c then some { cursor with place := .literal c }
  else if c = '/' then some { cursor with place := .slash }
  else if isOperator c then
    some { cursor with operator := cursor.operator || cursor.awaited.isEmpty }
  else if isClosing c then
    if cursor.awaited.head? = some c then some { cursor with awaited := cursor.awaited.tail }
    else none
  else some { cursor with awaited := (closing? c).toList ++ cursor.awaited }

def Cursor.step (cursor : Cursor) (c : Char) : Option Cursor :=
  match cursor.place with
  | .code => cursor.codeStep c
  | .slash =>
    if c = '/' then some { cursor with place := .comment }
    else { cursor with place := .code }.codeStep c
  | .comment => some (if endsLine c then { cursor with place := .code } else cursor)
  | .literal quote =>
    if c = '\\' then some { cursor with place := .escape quote }
    else some (if c = quote then { cursor with place := .code } else cursor)
  | .escape quote => some { cursor with place := .literal quote }

/-- Whether a text has an operator outside its brackets, its literals and its comments; none if its
brackets do not match, or if it ends in a literal or a comment. -/
def outermostOperator (text : String) : Option Bool := do
  let cursor ← text.toList.foldlM Cursor.step { place := .code, awaited := [], operator := false }
  if cursor.place = .code ∧ cursor.awaited = [] then some cursor.operator else none

/-- Wherever in code a text stands, the code goes on after it with the brackets as they were, and with
an operator if there was one or if the text has one and stands outside brackets. -/
def Reads (text : String) (operator : Bool) : Prop :=
  ∀ awaited found, text.toList.foldlM Cursor.step ⟨.code, awaited, found⟩ =
    some ⟨.code, awaited, found || awaited.isEmpty && operator⟩

variable {first second text : String} {one other operator : Bool} {texts : List String}

/-- What the scan finds in a text that stands by itself. -/
theorem Reads.outermostOperator (h : Reads text operator) :
    outermostOperator text = some operator := by
  rw [TypeScript.outermostOperator, h [] false]
  rfl

/-- A text read after another has an operator outermost if either has. -/
theorem Reads.append (hfirst : Reads first one) (hsecond : Reads second other) :
    Reads (first ++ second) (one || other) := by
  intro awaited found
  rw [String.toList_append, List.foldlM_append, hfirst, Option.bind_eq_bind, Option.bind_some,
    hsecond, Bool.or_assoc, ← Bool.and_or_distrib_left]

/-! ## Characters that change nothing -/

/-- The characters that are more than themselves in code: quotes, the slash, operators and brackets. -/
def marks : List Char :=
  ['"', '\x27', '\x60', '/', '|', '&', '(', ')', '[', ']', '\x7b', '\x7d', '<', '>']

def Plain (text : String) : Prop :=
  ∀ c ∈ text.toList, c ∉ marks

instance : DecidablePred Plain :=
  fun text => List.decidableBAll _ text.toList

theorem Cursor.codeStep_of_not_mem {cursor : Cursor} {c : Char} (h : c ∉ marks) :
    cursor.codeStep c = some cursor := by
  simp only [marks, List.mem_cons, List.not_mem_nil, or_false, not_or] at h
  have hclosing : closing? c = none := by
    unfold closing?
    split <;> simp_all
  simp [Cursor.codeStep, isQuote, isOperator, isClosing, hclosing, h]

theorem foldlM_eq_self {cursor : Cursor} {cs : List Char}
    (h : ∀ c ∈ cs, cursor.step c = some cursor) : cs.foldlM Cursor.step cursor = some cursor := by
  induction cs with
  | nil => rfl
  | cons c cs ih =>
    obtain ⟨hc, hcs⟩ := List.forall_mem_cons.mp h
    rw [List.foldlM_cons, hc, Option.bind_eq_bind, Option.bind_some, ih hcs]

/-- A text without marks has no operator. -/
theorem Plain.reads (h : Plain text) : Reads text false := by
  intro awaited found
  rw [Bool.and_false, Bool.or_false]
  exact foldlM_eq_self fun c hc => Cursor.codeStep_of_not_mem (h c hc)

theorem reads_join (h : ∀ text ∈ texts, ∃ operator, Reads text operator) :
    ∃ operator, Reads (String.join texts) operator := by
  induction texts with
  | nil => exact ⟨false, Plain.reads (by decide)⟩
  | cons text texts ih =>
    obtain ⟨⟨one, htext⟩, htexts⟩ := List.forall_mem_cons.mp h
    obtain ⟨other, hjoin⟩ := ih htexts
    rw [String.join_cons]
    exact ⟨one || other, htext.append hjoin⟩

/-! ## Operators and brackets -/

theorem reads_union : Reads " | " true := by
  intro awaited found
  rw [Bool.and_true]
  rfl

theorem reads_intersection : Reads " & " true := by
  intro awaited found
  rw [Bool.and_true]
  rfl

/-- Of several texts, an operator between them is outside their brackets. -/
theorem reads_intercalate {separator : String} (hseparator : Reads separator true)
    (h : ∀ text ∈ texts, Reads text false) :
    Reads (separator.intercalate texts) (decide (1 < texts.length)) := by
  induction texts with
  | nil =>
    rw [String.intercalate_nil]
    exact Plain.reads (by decide)
  | cons text texts ih =>
    obtain ⟨htext, htexts⟩ := List.forall_mem_cons.mp h
    by_cases hnil : texts = []
    · rwa [hnil, String.intercalate_singleton]
    · have hlength : 1 < (text :: texts).length := by
        rw [List.length_cons]
        exact Nat.succ_lt_succ (List.length_pos_of_ne_nil hnil)
      rw [String.intercalate_cons_of_ne_nil hnil, decide_eq_true hlength]
      exact (htext.append hseparator).append (ih htexts)

variable {opening closing : Char} {awaited : List Char} {found : Bool}

theorem step_opening (h : closing? opening = some closing) :
    Cursor.step ⟨.code, awaited, found⟩ opening = some ⟨.code, closing :: awaited, found⟩ := by
  unfold closing? at h
  split at h <;> cases h <;> rfl

theorem step_closing (h : closing? opening = some closing) :
    Cursor.step ⟨.code, closing :: awaited, found⟩ closing = some ⟨.code, awaited, found⟩ := by
  unfold closing? at h
  split at h <;> cases h <;> rfl

/-- No operator inside brackets is outside of them. -/
theorem reads_brackets {before after : String} (hbefore : before.toList = [opening])
    (hafter : after.toList = [closing]) (hclosing : closing? opening = some closing)
    (h : Reads text operator) : Reads (before ++ text ++ after) false := by
  intro awaited found
  -- Inside, one more bracket is to come, so the operator of the text does not count.
  rw [String.toList_append, String.toList_append, hbefore, hafter, List.append_assoc,
    List.singleton_append, List.foldlM_cons, step_opening hclosing, Option.bind_eq_bind,
    Option.bind_some, List.foldlM_append, h, Option.bind_eq_bind, Option.bind_some,
    List.isEmpty_cons, Bool.false_and, Bool.and_false, List.foldlM_cons, step_closing hclosing]
  rfl

example : outermostOperator "(a | b)[]" = some false ∧ outermostOperator "a | b[]" = some true ∧
    outermostOperator "(a | b[]" = none := by
  decide

/-! ## Literals -/

theorem step_literal {c : Char} (hquote : c ≠ '"') (hslash : c ≠ '\\') :
    Cursor.step ⟨.literal '"', awaited, found⟩ c = some ⟨.literal '"', awaited, found⟩ := by
  simp only [Cursor.step, if_neg hslash, if_neg hquote]

/-- An escaped character does not end the literal it stands in. -/
theorem foldlM_quoteChar (c : Char) :
    (Text.quoteChar c).foldlM Cursor.step ⟨.literal '"', awaited, found⟩ =
      some ⟨.literal '"', awaited, found⟩ := by
  unfold Text.quoteChar
  split_ifs with hquote hslash
  -- An escape takes the reader out of the literal for one character, which may be any.
  iterate 7 rfl
  · show List.foldlM Cursor.step ⟨.literal '"', awaited, found⟩ (Text.hexDigits 4 c.toNat) = _
    refine foldlM_eq_self fun digit hdigit => ?_
    obtain ⟨hquote, hslash, _⟩ := Text.of_mem_hexDigits hdigit
    exact step_literal hquote hslash
  · exact foldlM_eq_self (List.forall_mem_singleton.mpr (step_literal hquote hslash))

theorem foldlM_quoteChars (cs : List Char) :
    (cs.flatMap Text.quoteChar).foldlM Cursor.step ⟨.literal '"', awaited, found⟩ =
      some ⟨.literal '"', awaited, found⟩ := by
  induction cs with
  | nil => rfl
  | cons c cs ih =>
    rw [List.flatMap_cons, List.foldlM_append, foldlM_quoteChar, Option.bind_eq_bind,
      Option.bind_some, ih]

/-- What a literal holds is not read as code, whatever its characters are. -/
theorem reads_quoted (s : String) : Reads (Text.quoted s) false := by
  intro awaited found
  rw [Text.quoted, String.toList_ofList, List.append_assoc, List.singleton_append, List.foldlM_cons,
    Bool.and_false, Bool.or_false]
  show List.foldlM Cursor.step ⟨.literal '"', awaited, found⟩ (_ ++ ['"']) = _
  rw [List.foldlM_append, foldlM_quoteChars]
  rfl

/-! ## Comments -/

/-- A comment goes on to the end of its line. -/
theorem reads_commentLine (depth : Int) {comment : String}
    (h : ∀ c ∈ comment.toList, endsLine c = false) :
    Reads (String.ofList (Text.trimEnd (indent depth ++ "// " ++ comment).toList) ++ "\n") false := by
  intro awaited found
  -- Blanks are code without a mark; from the slashes to the end of the line all is comment.
  have hblanks : (List.replicate (2 * depth).toNat ' ').foldlM Cursor.step ⟨.code, awaited, found⟩ =
      some ⟨.code, awaited, found⟩ := by
    refine foldlM_eq_self fun c hc => ?_
    rw [List.eq_of_mem_replicate hc]
    exact Cursor.codeStep_of_not_mem (by decide)
  have hcomment : (Text.trimEnd (' ' :: comment.toList)).foldlM Cursor.step
      ⟨.comment, awaited, found⟩ = some ⟨.comment, awaited, found⟩ := by
    refine foldlM_eq_self fun c hc => ?_
    have hkept : endsLine c = false := by
      rcases List.mem_cons.mp (Text.mem_of_mem_trimEnd hc) with rfl | hmem
      · rfl
      · exact h c hmem
    simp only [Cursor.step, hkept, Bool.false_eq_true, if_false]
  rw [String.toList_append, String.toList_ofList, trimEnd_commentLine, List.append_assoc,
    List.foldlM_append, hblanks, Option.bind_eq_bind, Option.bind_some, Bool.and_false,
    Bool.or_false]
  show List.foldlM Cursor.step ⟨.comment, awaited, found⟩ (_ ++ ['\n']) = _
  rw [List.foldlM_append, hcomment]
  rfl

end ApiTypes.TypeScript
