import Mathlib.Data.List.Nodup
import ApiTypes.Proofs.Text.Cutting
import ApiTypes.Proofs.TypeScript.Names
import ApiTypes.Proofs.TypeScript.Rendering

/-!
# The members of an enumeration

Every literal of an enumeration gives one member, whose name is an identifier that begins with a
letter. A name that was there before gets a number. The numbered names are distinct from each other,
but nothing keeps them from being the name of another literal.
-/

namespace ApiTypes.TypeScript

/-! ## Numbered names -/

/-- A name as it is written where it has occurred `rank` times before. -/
def rankedName : String × Nat → String
  | (name, rank) => if rank = 0 then name else name ++ "_" ++ toString (rank + 1)

/-- Names with how often each has occurred before, `earlier` being the names before all of them. -/
def ranksFrom (earlier : List String) : List String → List (String × Nat)
  | [] => []
  | name :: names => (name, earlier.count name) :: ranksFrom (name :: earlier) names

variable {earlier names : List String} {name other : String} {rank : Nat}

/-- Numbering names is counting how often each has come before. -/
theorem numberedFrom_eq_map : numberedFrom earlier names = (ranksFrom earlier names).map rankedName := by
  induction names generalizing earlier with
  | nil => rfl
  | cons name names ih => rw [numberedFrom, ranksFrom, List.map_cons, ih, rankedName]

theorem length_ranksFrom : (ranksFrom earlier names).length = names.length := by
  induction names generalizing earlier with
  | nil => rfl
  | cons name names ih => rw [ranksFrom, List.length_cons, List.length_cons, ih]

/-- The ranks of a name go on from how often it has occurred before. -/
theorem mem_ranksFrom : (name, rank) ∈ ranksFrom earlier names ↔
    earlier.count name ≤ rank ∧ rank < earlier.count name + names.count name := by
  induction names generalizing earlier with
  | nil => simp [ranksFrom]
  | cons first names ih =>
    rw [ranksFrom, List.mem_cons, ih, Prod.mk.injEq]
    by_cases hfirst : name = first
    · subst hfirst
      simp only [List.count_cons_self, true_and]
      omega
    · simp only [List.count_cons_of_ne (Ne.symm hfirst), hfirst, false_and, false_or]

theorem nodup_ranksFrom : (ranksFrom earlier names).Nodup := by
  induction names generalizing earlier with
  | nil => exact List.nodup_nil
  | cons first names ih =>
    refine List.nodup_cons.mpr ⟨fun hmem => ?_, ih⟩
    have hrank := (mem_ranksFrom.mp hmem).1
    rw [List.count_cons_self] at hrank
    omega

/-- A number behind the last mark can be told from the name. -/
theorem append_number_inj {m n : Nat}
    (h : name ++ "_" ++ toString m = other ++ "_" ++ toString n) : name = other ∧ m = n := by
  have hdigits : ∀ k : Nat, '_' ∉ (toString k).toList :=
    fun k hmem => absurd (Text.isDigit_of_mem_nat hmem) (by decide)
  have hlist : name.toList ++ '_' :: (toString m).toList =
      other.toList ++ '_' :: (toString n).toList := by
    simpa using congrArg String.toList h
  obtain ⟨hname, hnumber⟩ := Text.append_mark_inj (hdigits m) (hdigits n) hlist
  exact ⟨String.toList_inj.mp hname, Text.nat_inj (String.toList_inj.mp hnumber)⟩

/-- Of two occurrences, the first is numbered, and is then written as the name of the second, which
is not. -/
def Overwrites (first second : String × Nat) : Prop :=
  first.2 ≠ 0 ∧ second = (first.1 ++ "_" ++ toString (first.2 + 1), 0)

/-- Two members have one name only if they are one, or if one spells what the other is numbered
to. -/
theorem rankedName_cases {first second : String × Nat} (h : rankedName first = rankedName second) :
    first = second ∨ Overwrites first second ∨ Overwrites second first := by
  obtain ⟨name, rank⟩ := first
  obtain ⟨other, otherRank⟩ := second
  rw [rankedName, rankedName] at h
  by_cases hrank : rank = 0 <;> by_cases hotherRank : otherRank = 0
  · rw [if_pos hrank, if_pos hotherRank] at h
    exact .inl (by rw [h, hrank, hotherRank])
  · rw [if_pos hrank, if_neg hotherRank] at h
    exact .inr (.inr ⟨hotherRank, by rw [h, hrank]⟩)
  · rw [if_neg hrank, if_pos hotherRank] at h
    exact .inr (.inl ⟨hrank, by rw [h, hotherRank]⟩)
  · rw [if_neg hrank, if_neg hotherRank] at h
    obtain ⟨hname, hnumber⟩ := append_number_inj h
    exact .inl (by rw [hname, Nat.succ.inj hnumber])

/-- The names are distinct after numbering if and only if no number makes one of them another one. -/
theorem nodup_numbered : (numbered names).Nodup ↔
    ∀ name ∈ names, ∀ number, 2 ≤ number → number ≤ names.count name →
      name ++ "_" ++ toString number ∉ names := by
  have hmem : ∀ name rank, (name, rank) ∈ ranksFrom [] names ↔ rank < names.count name := by
    intro name rank
    rw [mem_ranksFrom, List.count_nil, Nat.zero_add]
    exact and_iff_right (Nat.zero_le rank)
  -- The pairs of a name and its rank are distinct, so that two can agree only as they are written.
  rw [numbered, numberedFrom_eq_map, List.nodup_map_iff_inj_on nodup_ranksFrom]
  constructor
  · intro hdistinct name hname number htwo hcount hother
    have hnumbered := (hmem name (number - 1)).mpr (by omega)
    have hnatural := (hmem _ 0).mpr (List.count_pos_iff.mpr hother)
    have hwritten : rankedName (name, number - 1) = rankedName (name ++ "_" ++ toString number, 0) := by
      rw [rankedName, rankedName, if_neg (by omega), if_pos rfl, Nat.sub_add_cancel (by omega)]
    have hsame := hdistinct _ hnumbered _ hnatural hwritten
    rw [Prod.mk.injEq] at hsame
    omega
  · intro hfree
    have hnot : ∀ first ∈ ranksFrom [] names, ∀ second ∈ ranksFrom [] names,
        ¬Overwrites first second := by
      rintro ⟨name, rank⟩ hname ⟨other, otherRank⟩ hother ⟨hrank, hsame⟩
      rw [hsame, hmem] at hother
      rw [hmem] at hname
      exact hfree name (List.count_pos_iff.mp (by omega)) (rank + 1) (by omega) hname
        (List.count_pos_iff.mp hother)
    intro first hfirst second hsecond hwritten
    rcases rankedName_cases hwritten with hsame | hover | hover
    · exact hsame
    · exact absurd hover (hnot first hfirst second hsecond)
    · exact absurd hover (hnot second hsecond first hfirst)

/-- Numbering keeps the names proper. -/
theorem isMemberName_of_mem_numbered (h : ∀ name ∈ names, IsMemberName name) :
    ∀ name ∈ numbered names, IsMemberName name := by
  rw [numbered, numberedFrom_eq_map]
  refine List.forall_mem_map.mpr fun ⟨name, rank⟩ hmem => ?_
  have hcount : 0 < names.count name := by
    have hrank := mem_ranksFrom.mp hmem
    omega
  have hname := h name (List.count_pos_iff.mp hcount)
  rw [rankedName]
  split
  · exact hname
  · refine (hname.append (List.all_eq_true.mp rfl)).append fun c hc => ?_
    exact isNameChar_of_isAlphanum (Text.isAlphanum_of_isDigit (Text.isDigit_of_mem_nat hc))

/-! ## Members -/

variable {values : List Json}

/-- The members are named by the numbered names of the literals, and carry the literals in order. -/
theorem enumMembers_eq_ok {members : List (String × String)} (h : enumMembers values = .ok members) :
    ∃ names, values.mapM memberName = .ok names ∧ members.map (·.1) = numbered names ∧
      List.Forall₂ (fun value member => literal value = .ok member.2) values members := by
  simp only [enumMembers, bind_eq_ok, mapM_eq_ok, pure_eq_ok, Except.ok.injEq] at h
  obtain ⟨pairs, hpairs, rfl⟩ := h
  -- There are as many names as values, so that none is lost when they are paired again.
  have hlength : (numbered (pairs.map (·.1))).length = (pairs.map (·.2)).length := by
    rw [numbered, numberedFrom_eq_map, List.length_map, length_ranksFrom, List.length_map,
      List.length_map]
  refine ⟨pairs.map (·.1), ?_, List.map_fst_zip (Nat.le_of_eq hlength), ?_⟩
  · rw [mapM_eq_ok, List.forall₂_map_right_iff]
    refine hpairs.imp fun value pair hpair => ?_
    obtain ⟨name, hname, text, _, rfl⟩ := hpair
    exact hname
  · have htexts : List.Forall₂ (fun value text => literal value = .ok text) values
        (pairs.map (·.2)) := by
      rw [List.forall₂_map_right_iff]
      refine hpairs.imp fun value pair hpair => ?_
      obtain ⟨name, _, text, htext, rfl⟩ := hpair
      exact htext
    rw [← List.map_snd_zip (Nat.le_of_eq hlength.symm), List.forall₂_map_right_iff] at htexts
    exact htexts

theorem isMemberName_of_enumMembers {members : List (String × String)}
    (h : enumMembers values = .ok members) : ∀ member ∈ members, IsMemberName member.1 := by
  obtain ⟨names, hnames, hnumbered, _⟩ := enumMembers_eq_ok h
  have hvalid : ∀ name ∈ names, IsMemberName name := by
    intro name hname
    obtain ⟨value, _, hvalue⟩ := exists_of_forall₂ (mapM_eq_ok.mp hnames).flip hname
    exact isMemberName_of_memberName hvalue
  rw [← List.forall_mem_map, hnumbered]
  exact isMemberName_of_mem_numbered hvalid

/-- Literals of one kind have the members of an enumeration: one for each, in order, with its literal
and with a name that is an identifier that begins with a letter. The names are distinct if and only if
no name that occurs several times is, with one of its numbers, the name of another literal. -/
theorem enumMembers_names {kind : Kind} (h : ∀ value ∈ values, Kind.ofLiteral value = .ok kind) :
    ∃ names members, values.mapM memberName = .ok names ∧ enumMembers values = .ok members ∧
      List.Forall₂ (fun value member => literal value = .ok member.2) values members ∧
      (∀ member ∈ members, IsMemberName member.1) ∧
      ((members.map (·.1)).Nodup ↔ ∀ name ∈ names, ∀ number, 2 ≤ number →
        number ≤ names.count name → name ++ "_" ++ toString number ∉ names) := by
  have huniform : Schema.Uniform { enumValues := values } := ⟨kind, h⟩
  have hrendered : FailsOnMalformed True (enumMembers values) := enumMembers_rendered huniform
  obtain ⟨members, hmembers⟩ := hrendered.exists_ok trivial
  obtain ⟨names, hnames, hnumbered, hliterals⟩ := enumMembers_eq_ok hmembers
  refine ⟨names, members, hnames, hmembers, hliterals, isMemberName_of_enumMembers hmembers, ?_⟩
  rw [hnumbered, nodup_numbered]

/-- Three words, two of which have the same name. -/
def wordLiterals : List Json :=
  [.string "in-progress", .string "in progress", .string "3"]

theorem enumMembers_names_words :
    (∀ value ∈ wordLiterals, Kind.ofLiteral value = .ok .string) ∧
    ∃ members, enumMembers wordLiterals = .ok members ∧
      members = [("IN_PROGRESS", "\"in-progress\""), ("IN_PROGRESS_2", "\"in progress\""),
        ("X3", "\"3\"")] ∧
      (∀ member ∈ members, IsMemberName member.1) ∧ (members.map (·.1)).Nodup := by
  have hkind : ∀ value ∈ wordLiterals, Kind.ofLiteral value = .ok .string := by
    simp [wordLiterals, Kind.ofLiteral]
  obtain ⟨names, members, hnames, hmembers, _, hvalid, hnodup⟩ := enumMembers_names hkind
  have hlist : names = ["IN_PROGRESS", "IN_PROGRESS", "X3"] :=
    Except.ok.inj (hnames.symm.trans (eq_ok_of_toOption (by decide +kernel)))
  refine ⟨hkind, members, hmembers, ?_, hvalid, hnodup.mpr ?_⟩
  · exact Except.ok.inj (hmembers.symm.trans (eq_ok_of_toOption (by decide +kernel)))
  · have hcounts : ∀ name ∈ names, names.count name ≤ 2 := by
      rw [hlist]
      decide
    have hfree : ∀ name ∈ names, name ++ "_" ++ toString 2 ∉ names := by
      rw [hlist]
      decide +kernel
    intro name hname number htwo hcount
    rw [Nat.le_antisymm (Nat.le_trans hcount (hcounts name hname)) htwo]
    exact hfree name hname

/-- Three words, the last of which has the name of the first with the number of the second. -/
def clashingLiterals : List Json :=
  [.string "a-b", .string "a b", .string "a_b_2"]

theorem not_nodup_enumMembers :
    (∀ value ∈ clashingLiterals, Kind.ofLiteral value = .ok .string) ∧
    ∃ members, enumMembers clashingLiterals = .ok members ∧ ¬(members.map (·.1)).Nodup := by
  refine ⟨by simp [clashingLiterals, Kind.ofLiteral], _, eq_ok_of_toOption rfl, by decide +kernel⟩

end ApiTypes.TypeScript
