import ApiTypes.Proofs.Naming
import Mathlib.Data.List.Forall2

/-!
# The names of operations

Both names of an operation are made of the same words: the method and the words of the path. The
words have letters and digits only, so that both names are well formed. What stands in a placeholder
is no part of the words, so that it can be replaced.
-/

namespace ApiTypes

/-- Words without the mark, joined by marks, run together where the marks are left out. -/
theorem Text.filter_intercalate {mark : Char} {words : List (List Char)}
    (h : ∀ word ∈ words, mark ∉ word) :
    (List.intercalate [mark] words).filter (· != mark) = words.flatten := by
  have hkept : ∀ word ∈ words, word.filter (· != mark) = word := by
    intro word hword
    refine List.filter_eq_self.mpr fun c hc => bne_iff_ne.mpr ?_
    rintro rfl
    exact h word hword hc
  induction words with
  | nil => rfl
  | cons word words ih =>
    obtain ⟨hword, hwords⟩ := List.forall_mem_cons.mp hkept
    cases words with
    | nil => simpa using hword
    | cons next words =>
      have hrest := ih (fun word hmem => h word (List.mem_cons_of_mem _ hmem)) hwords
      rw [List.intercalate_cons_cons, List.filter_append, List.filter_append, hword, hrest]
      simp

namespace OperationName

variable {method path : String}

/-! ## Words -/

/-- The words of both names. -/
def nameWords (method path : String) : List (List Char) :=
  Text.lower method.toList :: pathWords path.toList

/-- A method is a word whose first letter is of upper case in the second style. -/
theorem isWord_of_method (h : method ∈ methods) : IsWord method.toList ∧
    ∃ first rest, Text.capitalize method.toList = first :: rest ∧ first.isUpper = true := by
  have hall : (methods.all fun method => !method.toList.isEmpty &&
      method.toList.all Char.isAlphanum &&
        (Text.capitalize method.toList).head?.any Char.isUpper) = true := by
    with_unfolding_all decide
  have hmethod := List.all_eq_true.mp hall method h
  simp only [Bool.and_eq_true, Bool.not_eq_true', List.isEmpty_eq_false_iff] at hmethod
  obtain ⟨⟨hfull, hword⟩, hupper⟩ := hmethod
  refine ⟨⟨hfull, List.all_eq_true.mp hword⟩, ?_⟩
  cases hlist : Text.capitalize method.toList with
  | nil => simp [hlist] at hupper
  | cons first rest => exact ⟨first, rest, rfl, by simpa [hlist] using hupper⟩

/-- A method in any letter case. -/
def Recognized (method : String) : Prop :=
  String.ofList (Text.lower method.toList) ∈ methods

/-- No word of a name is empty, and each is made of letters and digits. -/
theorem isWord_of_mem_nameWords (h : Recognized method) {word : List Char}
    (hword : word ∈ nameWords method path) : IsWord word := by
  rcases List.mem_cons.mp hword with rfl | hmem
  · have hmethod := (isWord_of_method h).1
    rwa [String.toList_ofList] at hmethod
  · exact isWord_of_mem_pathWords hmem

/-! ## Well-formed names -/

theorem toList_snake (method path : String) : (infer method path).snake.toList =
    List.intercalate ['_'] ((nameWords method path).map Text.lower) := by
  rw [infer, String.toList_ofList, nameWords]

theorem toList_pascal_words (method path : String) :
    (infer method path).pascal.toList = (nameWords method path).flatMap Text.capitalize := by
  rw [infer, String.toList_ofList, nameWords]

theorem isAlphanum_of_pascal (h : Recognized method) :
    ∀ c ∈ (infer method path).pascal.toList, c.isAlphanum = true := by
  intro c hc
  rw [toList_pascal_words] at hc
  obtain ⟨word, hword, hmem⟩ := List.mem_flatMap.mp hc
  exact Text.isAlphanum_of_capitalize (isWord_of_mem_nameWords h hword).2 c hmem

/-- The name in the second style begins with a letter of upper case. -/
theorem pascal_begins (h : Recognized method) (path : String) :
    ∃ first rest, (infer method path).pascal.toList = first :: rest ∧ first.isUpper = true ∧
      ∀ c ∈ rest, c.isAlphanum = true := by
  obtain ⟨_, first, rest, hbegin, hupper⟩ := isWord_of_method h
  rw [String.toList_ofList] at hbegin
  have hlist : (infer method path).pascal.toList =
      first :: (rest ++ (pathWords path.toList).flatMap Text.capitalize) := by
    rw [toList_pascal_words, nameWords, List.flatMap_cons, hbegin, List.cons_append]
  have halphanum : ∀ c ∈ (infer method path).pascal.toList, c.isAlphanum = true :=
    isAlphanum_of_pascal h
  rw [hlist] at halphanum
  exact ⟨first, _, hlist, hupper, (List.forall_mem_cons.mp halphanum).2⟩

/-- A suffix keeps the name in the second style an identifier. -/
theorem identifier_pascal (h : Recognized method) (path : String) {suffix : String}
    (hsuffix : suffix ∈ Operation.allSuffixes) :
    TypeScript.identifier ((infer method path).pascal ++ suffix) =
      (infer method path).pascal ++ suffix := by
  obtain ⟨first, rest, hlist, hupper, _⟩ := pascal_begins h path
  have hhead : (infer method path).pascal.toList.head? = some first := by
    rw [hlist]
    rfl
  have hfirst : first.isAlpha = true := Bool.or_eq_true_iff.mpr (.inl hupper)
  exact Operation.identifier_append_suffix (isAlphanum_of_pascal h) hhead
    (Text.isDigit_of_isAlpha hfirst) hsuffix

theorem lower_of_isWord {word : List Char} (h : IsWord word) :
    Text.lower word = word.map Char.toLower :=
  Text.lower_of_isAlphanum h.2

/-- The name in the first style is made of runs of lower-case letters and digits, with one underscore
between two of them. -/
theorem snake_words (h : Recognized method) (path : String) : ∃ words, words ≠ [] ∧
    (infer method path).snake.toList = List.intercalate ['_'] words ∧
      ∀ word ∈ words, word ≠ [] ∧ ∀ c ∈ word, (c.isLower || c.isDigit) = true := by
  refine ⟨(nameWords method path).map Text.lower, List.cons_ne_nil _ _, toList_snake method path, ?_⟩
  rw [List.forall_mem_map]
  intro word hword
  have hisWord := isWord_of_mem_nameWords h hword
  rw [lower_of_isWord hisWord]
  refine ⟨fun hnil => hisWord.1 (List.map_eq_nil_iff.mp hnil), List.forall_mem_map.mpr ?_⟩
  exact fun c hc => Text.toLower_of_isAlphanum (hisWord.2 c hc)

/-- The two names differ in the underscores and in the case of letters only. -/
theorem snake_eq_pascal (h : Recognized method) (path : String) :
    (infer method path).snake.toList.filter (· != '_') =
      Text.lower (infer method path).pascal.toList := by
  have hwords : ∀ word ∈ nameWords method path, IsWord word :=
    fun word => isWord_of_mem_nameWords h
  -- The words have no mark inside, so that leaving out the marks joins them.
  have hmark : ∀ word ∈ (nameWords method path).map Text.lower, '_' ∉ word := by
    rw [List.forall_mem_map]
    intro word hword hmem
    rw [lower_of_isWord (hwords word hword)] at hmem
    obtain ⟨c, hc, hunderscore⟩ := List.mem_map.mp hmem
    have hlower := Text.toLower_of_isAlphanum ((hwords word hword).2 c hc)
    rw [hunderscore] at hlower
    exact absurd hlower (by decide)
  rw [toList_snake, Text.filter_intercalate hmark, Text.lower_of_isAlphanum (isAlphanum_of_pascal h),
    toList_pascal_words, List.map_flatMap, ← List.flatMap_def]
  refine List.flatMap_congr fun word hword => ?_
  rw [lower_of_isWord (hwords word hword), Text.map_toLower_capitalize (hwords word hword).2]

/-! ## Placeholders -/

/-- Two segments of a path that give the same words: they are the same, or both have a brace. -/
def SameWords (segment other : List Char) : Prop :=
  segment = other ∨ '\x7b' ∈ segment ∧ '\x7b' ∈ other

theorem SameWords.cons {segment other : List Char} (h : SameWords segment other) (c : Char) :
    SameWords (c :: segment) (c :: other) := by
  rcases h with rfl | ⟨hsegment, hother⟩
  · exact .inl rfl
  · exact .inr ⟨List.mem_cons_of_mem c hsegment, List.mem_cons_of_mem c hother⟩

def openSegments (path : List Char) : List (List Char) :=
  (Text.splitWhen (· == '/') path).filter fun segment => !segment.contains '\x7b'

/-- Two paths that differ only in segments with a placeholder keep the same segments. -/
theorem filter_sameWords {segments others : List (List Char)}
    (h : List.Forall₂ SameWords segments others) :
    segments.filter (fun segment => !segment.contains '\x7b') =
      others.filter fun segment => !segment.contains '\x7b' := by
  induction h with
  | nil => rfl
  | cons hfirst _ ih =>
    rcases hfirst with rfl | ⟨hsegment, hother⟩
    · rw [List.filter_cons, List.filter_cons, ih]
    · rw [List.filter_cons_of_neg (by simpa using hsegment),
        List.filter_cons_of_neg (by simpa using hother), ih]

/-- What stands before two texts does not make a difference between their segments. -/
theorem sameWords_append {first second : List Char} (before : List Char)
    (h : List.Forall₂ SameWords (Text.splitWhen (· == '/') first)
      (Text.splitWhen (· == '/') second)) :
    List.Forall₂ SameWords (Text.splitWhen (· == '/') (before ++ first))
      (Text.splitWhen (· == '/') (before ++ second)) := by
  induction before with
  | nil => exact h
  | cons c before ih =>
    rw [List.cons_append, List.cons_append, Text.splitWhen, Text.splitWhen]
    split
    · exact .cons (.inl rfl) ih
    · generalize Text.splitWhen (· == '/') (before ++ first) = segments at ih ⊢
      generalize Text.splitWhen (· == '/') (before ++ second) = others at ih ⊢
      cases ih with
      | nil => exact .nil
      | cons hfirst hrest => exact .cons (hfirst.cons c) hrest

theorem forall₂_sameWords_refl (segments : List (List Char)) :
    List.Forall₂ SameWords segments segments :=
  List.forall₂_same.mpr fun _ _ => .inl rfl

/-- The text behind a brace is no part of a segment that gives words. -/
theorem openSegments_brace (before : List Char) {text other : List Char} (after : List Char)
    (htext : '/' ∉ text) (hother : '/' ∉ other) :
    openSegments (before ++ '\x7b' :: (text ++ after)) =
      openSegments (before ++ '\x7b' :: (other ++ after)) := by
  have hsplit : ∀ text : List Char, '/' ∉ text →
      Text.splitWhen (· == '/') ('\x7b' :: (text ++ after)) =
        (Text.splitWhen (· == '/') after).modifyHead ('\x7b' :: text ++ ·) := by
    intro text hslash
    rw [← List.cons_append]
    refine Text.splitWhen_append (fun c hc => beq_eq_false_iff_ne.mpr ?_) after
    rintro rfl
    rcases List.mem_cons.mp hc with hbrace | hmem
    · exact absurd hbrace (by decide)
    · exact hslash hmem
  -- Only the segment with the brace changes, and it is dropped either way.
  refine filter_sameWords (sameWords_append before ?_)
  rw [hsplit text htext, hsplit other hother]
  cases Text.splitWhen (· == '/') after with
  | nil => exact .nil
  | cons piece pieces =>
    exact .cons (.inr ⟨List.mem_cons_self, List.mem_cons_self⟩) (forall₂_sameWords_refl pieces)

/-- The ending that is left out does not reach beyond a character that it has not. -/
theorem suffix_append_cons {ending before after : List Char} {mark : Char} (hmark : mark ∉ ending) :
    ending <:+ before ++ mark :: after ↔ ending <:+ after := by
  constructor
  · intro h
    have hmarked : ending <:+ mark :: after := by
      refine (List.suffix_or_suffix_of_suffix h (List.suffix_append before _)).resolve_right ?_
      exact fun hreach => hmark (hreach.subset List.mem_cons_self)
    refine (List.suffix_cons_iff.mp hmarked).resolve_left ?_
    rintro rfl
    exact hmark List.mem_cons_self
  · intro h
    exact h.trans ((List.suffix_cons mark after).trans (List.suffix_append before _))

/-- An extension is looked for only at the end of the path. -/
theorem withoutExtension_append_cons {mark : Char} (hmark : mark ∉ ".json".toList)
    (before after : List Char) :
    withoutExtension (before ++ mark :: after) = before ++ mark :: withoutExtension after := by
  unfold withoutExtension
  simp only [List.isSuffixOf_iff_suffix, suffix_append_cons hmark]
  split
  · rename_i hending
    have hlong : 5 ≤ after.length := hending.length_le
    have hkept : (before ++ mark :: after).length - 5 =
        before.length + (after.length - 5 + 1) := by
      rw [List.length_append, List.length_cons]
      omega
    rw [hkept, List.take_length_add_append, List.take_succ_cons]
  · rfl

theorem withoutExtension_of_not {path : List Char} (h : ¬".json".toList <:+ path) :
    withoutExtension path = path :=
  if_neg (List.isSuffixOf_iff_suffix.not.mpr h)

theorem withoutExtension_append_ending (path : List Char) :
    withoutExtension (path ++ ".json".toList) = path := by
  have hlength : (path ++ ".json".toList).length - 5 = path.length := by
    rw [List.length_append]
    exact Nat.add_sub_cancel _ 5
  rw [withoutExtension, if_pos (List.isSuffixOf_iff_suffix.mpr (List.suffix_append _ _)), hlength,
    List.take_left]

theorem mem_of_mem_withoutExtension {path : List Char} {c : Char} (h : c ∈ withoutExtension path) :
    c ∈ path := by
  unfold withoutExtension at h
  split at h
  · exact List.mem_of_mem_take h
  · exact h

theorem pathWords_eq (path : List Char) : pathWords path =
    (openSegments (withoutExtension path)).flatMap (Text.runsOutside fun c => !c.isAlphanum) :=
  rfl

/-- A text behind a brace and one without a slash in its place leave the words of a path as they are,
if both paths have the ending that is left out or neither has. -/
theorem pathWords_brace (before : List Char) {text other : List Char} (after : List Char)
    (htext : '/' ∉ text) (hother : '/' ∉ other)
    (hending : ".json".toList <:+ text ++ after ↔ ".json".toList <:+ other ++ after) :
    pathWords (before ++ '\x7b' :: (text ++ after)) =
      pathWords (before ++ '\x7b' :: (other ++ after)) := by
  have hbrace : '\x7b' ∉ ".json".toList := by decide
  rw [pathWords_eq, pathWords_eq, withoutExtension_append_cons hbrace,
    withoutExtension_append_cons hbrace]
  congr 1
  by_cases hafter : ".json".toList <:+ after
  · obtain ⟨more, rfl⟩ := hafter
    rw [← List.append_assoc, ← List.append_assoc, withoutExtension_append_ending,
      withoutExtension_append_ending]
    exact openSegments_brace before more htext hother
  · by_cases hjson : ".json".toList <:+ text ++ after
    -- The ending begins in the text, so that no slash follows the brace.
    · have hshort : after <:+ ".json".toList :=
        (List.suffix_or_suffix_of_suffix hjson (List.suffix_append text after)).resolve_left hafter
      have hslash : ∀ text : List Char, '/' ∉ text → '/' ∉ withoutExtension (text ++ after) := by
        intro text hfree hmem
        rcases List.mem_append.mp (mem_of_mem_withoutExtension hmem) with htext | hmem
        · exact hfree htext
        · exact absurd (hshort.subset hmem) (by decide)
      have hsame := openSegments_brace before [] (hslash text htext) (hslash other hother)
      rwa [List.append_nil, List.append_nil] at hsame
    · rw [withoutExtension_of_not hjson, withoutExtension_of_not (hending.not.mp hjson)]
      exact openSegments_brace before after htext hother

/-- The names of an operation depend on the words of its path only. -/
theorem infer?_congr {other : String} (h : pathWords path.toList = pathWords other.toList) :
    infer? method path = infer? method other := by
  rw [infer?, infer?, infer, infer, h]

/-- What stands inside the braces of a placeholder has no part in the name. -/
theorem infer?_brace (method before : String) {text other : String} (after : String)
    (htext : '/' ∉ text.toList) (hother : '/' ∉ other.toList)
    (hending : ".json".toList <:+ (text ++ after).toList ↔
      ".json".toList <:+ (other ++ after).toList) :
    infer? method (before ++ "\x7b" ++ text ++ after) =
      infer? method (before ++ "\x7b" ++ other ++ after) := by
  rw [String.toList_append, String.toList_append] at hending
  apply infer?_congr
  simp only [String.toList_append, List.append_assoc]
  exact pathWords_brace before.toList after.toList htext hother hending

/-- Between two braces, no text reaches the ending of the path. -/
theorem infer?_placeholder (method before : String) {text other : String} (after : String)
    (htext : '/' ∉ text.toList) (hother : '/' ∉ other.toList) :
    infer? method (before ++ "\x7b" ++ text ++ "\x7d" ++ after) =
      infer? method (before ++ "\x7b" ++ other ++ "\x7d" ++ after) := by
  have hending : ∀ text : String, ".json".toList <:+ (text ++ ("\x7d" ++ after)).toList ↔
      ".json".toList <:+ after.toList := by
    intro text
    rw [String.toList_append, String.toList_append]
    exact suffix_append_cons (by decide)
  have hsame := infer?_brace method before ("\x7d" ++ after) htext hother
    ((hending text).trans (hending other).symm)
  simpa only [String.append_assoc] using hsame

theorem infer?_eq_ok (h : Recognized method) (path : String) :
    infer? method path = .ok (infer method path) := by
  refine if_neg fun hempty => ?_
  have hmethod := (isWord_of_method h).1.1
  rw [String.isEmpty_iff.mp hempty] at hmethod
  exact hmethod rfl

/-- For a method in any letter case and every path, the names of the operation exist and are well
formed. The one in the second style is a letter of upper case and then letters and digits, so that it
is an identifier with every suffix. The one in the first style is made of runs of lower-case letters
and digits with an underscore between two of them, and without the underscores it is the other one in
lower case. The text between two braces can be replaced by any text without a slash, and so can the
text behind a brace as long as the path does not lose or get the ending. -/
theorem infer_wellFormed (hmethod : String.ofList (Text.lower method.toList) ∈ methods)
    (path : String) :
    infer? method path = .ok (infer method path) ∧
    (∃ first rest, (infer method path).pascal.toList = first :: rest ∧ first.isUpper = true ∧
      ∀ c ∈ rest, c.isAlphanum = true) ∧
    (∀ suffix ∈ ["Path", "Query", "Body", "Response", "Request"],
      TypeScript.identifier ((infer method path).pascal ++ suffix) =
        (infer method path).pascal ++ suffix) ∧
    (∃ words, words ≠ [] ∧ (infer method path).snake.toList = List.intercalate ['_'] words ∧
      ∀ word ∈ words, word ≠ [] ∧ ∀ c ∈ word, (c.isLower || c.isDigit) = true) ∧
    (infer method path).snake.toList.filter (· != '_') =
      Text.lower (infer method path).pascal.toList ∧
    (∀ before text other after : String, '/' ∉ text.toList → '/' ∉ other.toList →
      infer? method (before ++ "\x7b" ++ text ++ "\x7d" ++ after) =
        infer? method (before ++ "\x7b" ++ other ++ "\x7d" ++ after)) ∧
    ∀ before text other after : String, '/' ∉ text.toList → '/' ∉ other.toList →
      (".json".toList <:+ (text ++ after).toList ↔ ".json".toList <:+ (other ++ after).toList) →
        infer? method (before ++ "\x7b" ++ text ++ after) =
          infer? method (before ++ "\x7b" ++ other ++ after) := by
  have hsuffixes : ∀ suffix ∈ ["Path", "Query", "Body", "Response", "Request"],
      suffix ∈ Operation.allSuffixes := by decide
  exact ⟨infer?_eq_ok hmethod path, pascal_begins hmethod path,
    fun suffix hsuffix => identifier_pascal hmethod path (hsuffixes suffix hsuffix),
    snake_words hmethod path, snake_eq_pascal hmethod path,
    fun before text other after => infer?_placeholder method before after,
    fun before text other after => infer?_brace method before after⟩

/-- The theorem at a method of upper case and a path with a placeholder, an ending and characters that
are no letters of the names. -/
theorem infer_wellFormed_orders :
    String.ofList (Text.lower "GET".toList) ∈ methods ∧
      infer "GET" "/Users/\x7bid\x7d/new-ørders.json" =
        ⟨"get_users_new_rders", "GetUsersNewRders"⟩ ∧
      TypeScript.identifier "GetUsersNewRdersQuery" = "GetUsersNewRdersQuery" ∧
      infer? "GET" ("/Users/" ++ "\x7b" ++ "id" ++ "\x7d" ++ "/new-ørders.json") =
        infer? "GET" ("/Users/" ++ "\x7b" ++ "the user" ++ "\x7d" ++ "/new-ørders.json") := by
  have hmethod : String.ofList (Text.lower "GET".toList) ∈ methods := by decide +kernel
  have hname : infer "GET" "/Users/\x7bid\x7d/new-ørders.json" =
      ⟨"get_users_new_rders", "GetUsersNewRders"⟩ := by decide +kernel
  obtain ⟨_, _, hsuffix, _, _, hplaceholder, _⟩ :=
    infer_wellFormed hmethod "/Users/\x7bid\x7d/new-ørders.json"
  have hquery := hsuffix "Query" (by decide)
  rw [hname] at hquery
  exact ⟨hmethod, hname, hquery, hplaceholder "/Users/" "id" "the user" "/new-ørders.json"
    (by decide) (by decide)⟩

end OperationName

end ApiTypes
