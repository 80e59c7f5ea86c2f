import Mathlib.Data.List.Chain
import ApiTypes.Text.Split

/-!
# Texts without empty lines

Paragraphs, which have no empty line, are joined with an empty line between two of them, and come
back when the joined text is cut at the empty lines.
-/

namespace ApiTypes.Text

/-! ## Texts on one line -/

def OnOneLine (text : String) : Prop :=
  '\n' ∉ text.toList

instance : DecidablePred OnOneLine :=
  fun text => inferInstanceAs (Decidable ('\n' ∉ text.toList))

variable {first second text separator : String} {texts : List String}

theorem onOneLine_ofList {cs : List Char} : OnOneLine (String.ofList cs) ↔ '\n' ∉ cs := by
  rw [OnOneLine, String.toList_ofList]

theorem onOneLine_append : OnOneLine (first ++ second) ↔ OnOneLine first ∧ OnOneLine second := by
  rw [OnOneLine, String.toList_append, List.mem_append, not_or]
  rfl

theorem onOneLine_join (h : ∀ text ∈ texts, OnOneLine text) : OnOneLine (String.join texts) := by
  rw [OnOneLine, String.toList_join, List.mem_flatMap]
  rintro ⟨text, hmem, hbreak⟩
  exact h text hmem hbreak

/-- Lines joined on one line are one line. -/
theorem onOneLine_intercalate (hseparator : OnOneLine separator)
    (h : ∀ text ∈ texts, OnOneLine text) : OnOneLine (separator.intercalate texts) := by
  induction texts with
  | nil =>
    rw [String.intercalate_nil]
    decide
  | cons text texts ih =>
    obtain ⟨htext, htexts⟩ := List.forall_mem_cons.mp h
    by_cases hnil : texts = []
    · rwa [hnil, String.intercalate_singleton]
    · rw [String.intercalate_cons_of_ne_nil hnil, onOneLine_append, onOneLine_append]
      exact ⟨⟨htext, hseparator⟩, ih htexts⟩

/-! ## Compact texts -/

/-- A text that has no line feed at its ends and nowhere two of them in a row. -/
structure Compact (text : String) : Prop where
  head : ∀ c ∈ text.toList.head?, c ≠ '\n'
  last : ∀ c ∈ text.toList.getLast?, c ≠ '\n'
  chain : text.toList.IsChain fun c next => c = '\n' → next ≠ '\n'

structure Paragraph (text : String) : Prop extends Compact text where
  full : text.toList ≠ []

theorem OnOneLine.compact (h : OnOneLine text) : Compact text := by
  have hne : ∀ c ∈ text.toList, c ≠ '\n' := by
    rintro c hc rfl
    exact h hc
  constructor
  · exact fun c hc => hne c (List.mem_of_head? hc)
  · exact fun c hc => hne c (List.mem_of_getLast? hc)
  · refine List.Pairwise.isChain (List.pairwise_iff_forall_sublist.mpr ?_)
    intro c next hsub _
    exact hne next (hsub.subset (by simp))

theorem Compact.append (hfirst : Compact first) (hsecond : Compact second) :
    Compact (first ++ second) := by
  constructor
  · intro c hc
    rw [String.toList_append, List.head?_append, Option.mem_def, Option.or_eq_some_iff] at hc
    rcases hc with hc | ⟨-, hc⟩
    · exact hfirst.head c hc
    · exact hsecond.head c hc
  · intro c hc
    rw [String.toList_append, List.getLast?_append, Option.mem_def, Option.or_eq_some_iff] at hc
    rcases hc with hc | ⟨-, hc⟩
    · exact hsecond.last c hc
    · exact hfirst.last c hc
  · rw [String.toList_append]
    exact hfirst.chain.append hsecond.chain fun _ _ next hnext _ => hsecond.head next hnext

theorem Compact.intercalate (hseparator : Compact separator) (h : ∀ text ∈ texts, Compact text) :
    Compact (separator.intercalate texts) := by
  induction texts with
  | nil =>
    rw [String.intercalate_nil]
    exact OnOneLine.compact (by decide)
  | cons text texts ih =>
    obtain ⟨htext, htexts⟩ := List.forall_mem_cons.mp h
    by_cases hnil : texts = []
    · rwa [hnil, String.intercalate_singleton]
    · rw [String.intercalate_cons_of_ne_nil hnil]
      exact (htext.append hseparator).append (ih htexts)

theorem OnOneLine.paragraph (h : OnOneLine text) (hne : text ≠ "") : Paragraph text where
  toCompact := h.compact
  full hnil := hne (String.toList_eq_nil_iff.mp hnil)

namespace Paragraph

/-- A paragraph goes on with any compact text. -/
theorem append (hfirst : Paragraph first) (hsecond : Compact second) :
    Paragraph (first ++ second) where
  toCompact := hfirst.toCompact.append hsecond
  full := by
    rw [String.toList_append]
    exact List.append_ne_nil_of_left_ne_nil hfirst.full _

theorem prepend (hfirst : Compact first) (hsecond : Paragraph second) :
    Paragraph (first ++ second) where
  toCompact := hfirst.append hsecond.toCompact
  full := by
    rw [String.toList_append]
    exact List.append_ne_nil_of_right_ne_nil _ hsecond.full

/-- A paragraph goes on with another one on the next line. -/
theorem below (hfirst : Paragraph first) (hsecond : Paragraph second) :
    Paragraph (first ++ "\n" ++ second) := by
  have hlist : (first ++ "\n" ++ second).toList = first.toList ++ '\n' :: second.toList := by simp
  refine ⟨⟨?_, ?_, ?_⟩, ?_⟩ <;> rw [hlist]
  · rw [List.head?_append_of_ne_nil _ hfirst.full]
    exact hfirst.head
  · rw [List.append_cons, List.getLast?_append_of_ne_nil _ hsecond.full]
    exact hsecond.last
  · refine hfirst.chain.append ?_ ?_
    · exact hsecond.chain.cons fun next hnext _ => hsecond.head next hnext
    · intro c hc _ _ hbreak
      exact absurd hbreak (hfirst.last c hc)
  · exact List.append_ne_nil_of_left_ne_nil hfirst.full _

/-- Paragraphs set line under line are one. -/
theorem lines (hne : texts ≠ []) (h : ∀ text ∈ texts, Paragraph text) :
    Paragraph ("\n".intercalate texts) := by
  induction texts with
  | nil => exact absurd rfl hne
  | cons text texts ih =>
    obtain ⟨htext, htexts⟩ := List.forall_mem_cons.mp h
    by_cases hnil : texts = []
    · rwa [hnil, String.intercalate_singleton]
    · rw [String.intercalate_cons_of_ne_nil hnil]
      exact htext.below (ih hnil htexts)

end Paragraph

/-! ## Paragraphs -/

/-- The pieces of a text between the occurrences of two line feeds in a row. -/
def paragraphsFrom : List Char → List (List Char)
  | [] => [[]]
  | '\n' :: '\n' :: cs => [] :: paragraphsFrom cs
  | c :: cs => (paragraphsFrom cs).modifyHead (c :: ·)

def paragraphs (text : String) : List String :=
  (paragraphsFrom text.toList).map String.ofList

theorem paragraphsFrom_cons {c : Char} {cs : List Char}
    (h : c = '\n' → ∀ next ∈ cs.head?, next ≠ '\n') :
    paragraphsFrom (c :: cs) = (paragraphsFrom cs).modifyHead (c :: ·) := by
  rw [paragraphsFrom]
  rintro rest hc rfl
  exact h hc '\n' rfl rfl

/-- What has no two line feeds in a row and no line feed at its end stays together. -/
theorem paragraphsFrom_append {before : List Char}
    (hchain : before.IsChain fun c next => c = '\n' → next ≠ '\n')
    (hlast : ∀ c ∈ before.getLast?, c ≠ '\n') (after : List Char) :
    paragraphsFrom (before ++ after) = (paragraphsFrom after).modifyHead (before ++ ·) := by
  induction before with
  | nil =>
    rw [List.nil_append]
    cases paragraphsFrom after <;> rfl
  | cons c before ih =>
    cases before with
    | nil => exact paragraphsFrom_cons fun hbreak => absurd hbreak (hlast c rfl)
    | cons next before =>
      -- Two breaks in a row would be the end of a paragraph, and there are none inside.
      obtain ⟨hnext, hchain⟩ := List.isChain_cons_cons.mp hchain
      have hstep : c = '\n' → ∀ d ∈ (next :: before ++ after).head?, d ≠ '\n' := by
        rintro hbreak d ⟨⟩
        exact hnext hbreak
      rw [List.cons_append, paragraphsFrom_cons hstep, ih hchain hlast, List.modifyHead_modifyHead]
      rfl

/-- Compact texts with an empty line between two of them come back. -/
theorem paragraphs_intercalate (hne : texts ≠ []) (h : ∀ text ∈ texts, Compact text) :
    paragraphs ("\n\n".intercalate texts) = texts := by
  induction texts with
  | nil => exact absurd rfl hne
  | cons text texts ih =>
    obtain ⟨htext, htexts⟩ := List.forall_mem_cons.mp h
    have hsplit := paragraphsFrom_append htext.chain htext.last
    by_cases hnil : texts = []
    · have hself := hsplit []
      rw [List.append_nil, paragraphsFrom, List.modifyHead_cons, List.append_nil] at hself
      rw [hnil, String.intercalate_singleton, paragraphs, hself, List.map_singleton,
        String.ofList_toList]
    · -- The first text is cut off at the empty line behind it.
      have hlist : (text ++ "\n\n" ++ "\n\n".intercalate texts).toList =
          text.toList ++ '\n' :: '\n' :: ("\n\n".intercalate texts).toList := by
        simp only [String.toList_append, List.append_assoc]
        rfl
      rw [String.intercalate_cons_of_ne_nil hnil, paragraphs, hlist, hsplit, paragraphsFrom,
        List.modifyHead_cons, List.append_nil, List.map_cons, String.ofList_toList]
      exact congrArg (text :: ·) (ih hnil htexts)

/-- The last of the joined texts ends the whole. -/
theorem getLast?_intercalate (hne : texts ≠ []) (h : ∀ text ∈ texts, Paragraph text) :
    ∃ last ∈ texts, (separator.intercalate texts).toList.getLast? = last.toList.getLast? := by
  induction texts with
  | nil => exact absurd rfl hne
  | cons text texts ih =>
    by_cases hnil : texts = []
    · rw [hnil, String.intercalate_singleton]
      exact ⟨text, List.mem_cons_self, rfl⟩
    · obtain ⟨last, hmem, hlast⟩ := ih hnil fun text hmem => h text (List.mem_cons_of_mem _ hmem)
      have hfull := (h last (List.mem_cons_of_mem _ hmem)).full
      refine ⟨last, List.mem_cons_of_mem _ hmem, ?_⟩
      rw [String.intercalate_cons_of_ne_nil hnil, String.toList_append, List.getLast?_append, hlast,
        List.getLast?_eq_some_getLast hfull, Option.some_or]

end ApiTypes.Text
