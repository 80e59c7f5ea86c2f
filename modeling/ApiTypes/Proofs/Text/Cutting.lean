import Mathlib.Data.List.Basic
import ApiTypes.Text.Blank
import ApiTypes.Text.Split

/-!
# Cutting and trimming

A text is cut at the characters of a class or after another text that begins it, and blanks are
trimmed from its ends: what is in the pieces was in the text.
-/

namespace ApiTypes.Text

variable {p : Char → Bool}

/-! ## Cutting -/

/-- A text falls apart at every character of the class. -/
theorem splitWhen_append_cons {mark : Char} (hmark : p mark = true) (before after : List Char) :
    splitWhen p (before ++ mark :: after) = splitWhen p before ++ splitWhen p after := by
  induction before with
  | nil => simp [splitWhen, hmark]
  | cons c before ih =>
    rw [List.cons_append, splitWhen, splitWhen, ih]
    split
    · rfl
    · cases hpieces : splitWhen p before with
      | nil => exact absurd hpieces (splitWhen_ne_nil p before)
      | cons piece pieces => rfl

/-- What comes before the first character of the class stays together. -/
theorem splitWhen_append {before : List Char} (h : ∀ c ∈ before, p c = false) (after : List Char) :
    splitWhen p (before ++ after) = (splitWhen p after).modifyHead (before ++ ·) := by
  induction before with
  | nil =>
    rw [List.nil_append]
    cases splitWhen p after <;> rfl
  | cons c before ih =>
    obtain ⟨hc, hbefore⟩ := List.forall_mem_cons.mp h
    rw [List.cons_append, splitWhen, if_neg (by simp [hc]), ih hbefore, List.modifyHead_modifyHead]
    rfl

theorem splitWhen_of_forall {cs : List Char} (h : ∀ c ∈ cs, p c = false) : splitWhen p cs = [cs] := by
  have hsplit := splitWhen_append h []
  rwa [List.append_nil, splitWhen, List.modifyHead_cons, List.append_nil] at hsplit

/-- What comes before a mark is the first piece, if it has no mark itself. -/
theorem split_append_mark {mark : Char} {before : String} (h : mark ∉ before.toList)
    (after : String) :
    split mark (before ++ (String.singleton mark ++ after)) = before :: split mark after := by
  have hkept : ∀ c ∈ before.toList, (c == mark) = false := by
    intro c hc
    rw [beq_eq_false_iff_ne]
    rintro rfl
    exact h hc
  rw [split, String.toList_append, String.toList_append, String.toList_singleton,
    List.singleton_append, splitWhen_append_cons (p := (· == mark)) (beq_self_eq_true mark),
    splitWhen_of_forall hkept, List.singleton_append, List.map_cons, String.ofList_toList, split]

/-- No piece has a character that it was cut at. -/
theorem of_mem_splitWhen {cs piece : List Char} (h : piece ∈ splitWhen p cs) :
    ∀ c ∈ piece, p c = false := by
  induction cs generalizing piece with
  | nil =>
    rw [List.mem_singleton.mp h]
    simp
  | cons first cs ih =>
    unfold splitWhen at h
    by_cases hfirst : p first = true
    · rw [if_pos hfirst] at h
      rcases List.mem_cons.mp h with rfl | hmem
      · simp
      · exact ih hmem
    · rw [if_neg hfirst] at h
      cases hpieces : splitWhen p cs with
      | nil => exact absurd hpieces (splitWhen_ne_nil p cs)
      | cons head pieces =>
        rw [hpieces, List.modifyHead_cons] at h
        rw [hpieces] at ih
        -- The character goes to the first piece, and the other pieces are as before.
        rcases List.mem_cons.mp h with rfl | hmem
        · exact List.forall_mem_cons.mpr ⟨by simpa using hfirst, ih List.mem_cons_self⟩
        · exact ih (List.mem_cons_of_mem _ hmem)

/-- A text falls apart at its last mark in one way only. -/
theorem append_mark_inj {mark : Char} {before other after rest : List Char} (hafter : mark ∉ after)
    (hrest : mark ∉ rest) (h : before ++ mark :: after = other ++ mark :: rest) :
    before = other ∧ after = rest := by
  -- What one of the two texts is longer by would have the other's mark in it.
  rcases List.append_eq_append_iff.mp h with ⟨more, rfl, hmore⟩ | ⟨more, rfl, hmore⟩
  · cases more with
    | nil => exact ⟨(List.append_nil _).symm, (List.cons.inj hmore).2⟩
    | cons c more =>
      rw [(List.cons.inj hmore).2] at hafter
      exact absurd (List.mem_append_right more List.mem_cons_self) hafter
  · cases more with
    | nil => exact ⟨List.append_nil _, (List.cons.inj hmore).2.symm⟩
    | cons c more =>
      rw [(List.cons.inj hmore).2] at hrest
      exact absurd (List.mem_append_right more List.mem_cons_self) hrest

/-! ## Beginnings -/

theorem after?_append (start rest : String) : after? start (start ++ rest) = some rest := by
  simp [after?]

theorem exists_of_startsWith {start text : String} (h : startsWith start text = true) :
    ∃ rest, text = start ++ rest := by
  rw [startsWith, List.isPrefixOf_iff_prefix] at h
  obtain ⟨rest, hrest⟩ := h
  exact ⟨String.ofList rest, String.toList_injective (by simp [hrest])⟩

/-- What is behind a beginning is what is left when it is taken off. -/
theorem after?_eq_some {start text rest : String} :
    after? start text = some rest ↔ text = start ++ rest := by
  constructor
  · intro h
    have hstart : startsWith start text = true := by
      by_contra hother
      rw [startsWith] at hother
      rw [after?, if_neg hother] at h
      cases h
    obtain ⟨tail, rfl⟩ := exists_of_startsWith hstart
    rw [after?_append] at h
    rw [Option.some.inj h]
  · rintro rfl
    exact after?_append start rest

/-! ## Trimming -/

theorem trimEnd_cons {c : Char} {cs : List Char} (h : isBlank c = false) :
    trimEnd (c :: cs) = c :: trimEnd cs := by
  rw [trimEnd]
  cases trimEnd cs <;> simp [h]

theorem mem_of_mem_trimEnd {c : Char} {cs : List Char} (h : c ∈ trimEnd cs) : c ∈ cs := by
  induction cs with
  | nil => exact h
  | cons first cs ih =>
    rw [trimEnd] at h
    split at h
    · split at h
      · cases h
      · exact List.mem_singleton.mp h ▸ List.mem_cons_self
    · rcases List.mem_cons.mp h with rfl | hmem
      · exact List.mem_cons_self
      · exact List.mem_cons_of_mem _ (ih hmem)

/-- Trimming the end takes only blanks away. -/
theorem mem_trimEnd {c : Char} {cs : List Char} (h : c ∈ cs) (hc : isBlank c = false) :
    c ∈ trimEnd cs := by
  induction cs with
  | nil => cases h
  | cons first cs ih =>
    rw [trimEnd]
    rcases List.mem_cons.mp h with rfl | hmem
    · split
      · rw [if_neg (by simp [hc])]
        exact List.mem_cons_self
      · exact List.mem_cons_self
    · split
      · rename_i hnil
        exact absurd (ih hmem) (hnil ▸ List.not_mem_nil)
      · exact List.mem_cons_of_mem _ (ih hmem)

/-- It takes them at the very end only. -/
theorem trimEnd_append {before after : List Char} (h : trimEnd after ≠ []) :
    trimEnd (before ++ after) = before ++ trimEnd after := by
  induction before with
  | nil => rfl
  | cons c before ih =>
    rw [List.cons_append, trimEnd, ih]
    cases hrest : before ++ trimEnd after with
    | nil => exact absurd (List.append_eq_nil_iff.mp hrest).2 h
    | cons first rest => simp [hrest]

theorem trimEnd_trimEnd (cs : List Char) : trimEnd (trimEnd cs) = trimEnd cs := by
  induction cs with
  | nil => rfl
  | cons c cs ih =>
    rw [trimEnd]
    cases hrest : trimEnd cs with
    | nil =>
      dsimp only
      split
      · rfl
      · rename_i hblank
        exact trimEnd_cons (by simpa using hblank)
    | cons next rest =>
      rw [hrest] at ih
      dsimp only
      rw [trimEnd, ih]

theorem mem_of_mem_trim {c : Char} {cs : List Char} (h : c ∈ trim cs) : c ∈ cs :=
  (List.dropWhile_sublist isBlank).subset (mem_of_mem_trimEnd h)

/-- A line has no line end in it. -/
theorem isLineEnd_of_mem_lines {cs line : List Char} (h : line ∈ lines cs) :
    ∀ c ∈ line, isLineEnd c = false := by
  -- A carriage return and a line feed end one line together, hence a case of its own.
  fun_induction lines cs generalizing line with
  | case1 => cases h
  | case2 cs ih =>
    rcases List.mem_cons.mp h with rfl | hmem
    · simp
    · exact ih hmem
  | case3 c cs _ hend ih =>
    rcases List.mem_cons.mp h with rfl | hmem
    · simp
    · exact ih hmem
  | case4 c cs _ hend hlines ih =>
    rw [List.mem_singleton.mp h]
    simpa using hend
  | case5 c cs _ hend first rest hlines ih =>
    rw [hlines] at ih
    rcases List.mem_cons.mp h with rfl | hmem
    · exact List.forall_mem_cons.mpr ⟨by simpa using hend, ih List.mem_cons_self⟩
    · exact ih (List.mem_cons_of_mem _ hmem)

end ApiTypes.Text
