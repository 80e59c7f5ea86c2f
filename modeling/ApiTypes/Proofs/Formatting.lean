import ApiTypes.Proofs.Outcome
import ApiTypes.Formatter

/-!
# A session of the formatter

A session is asked, in any order and for any commands, whether a command is there and to format code
with it. Whatever its runs come to, it answers every question. The version probe of a command is run
for the first question only, and its outcome decides all answers for that command; code is replaced
by what a run gave only where that very run succeeded.
-/

namespace ApiTypes

/-- What a session is asked: whether the command of the options is there, or to format code. -/
inductive Inquiry where
  | available (options : FormatterOptions)
  | format (options : FormatterOptions) (code : String)

inductive Reply where
  | available (found : Bool)
  | formatted (code : String)

def Inquiry.options : Inquiry → FormatterOptions
  | .available options => options
  | .format options _ => options

/-- A command as the setting that gives it. -/
def spelled (words : List String) : Json :=
  .array (words.map .string)

def probe (words : List String) : Call where
  command := words.map .string ++ [.string "--version"]
  timeout := 30

def formatting (options : FormatterOptions) (words : List String) (code : String) : Call where
  command := Session.formatWords options (words.map .string)
  timeout := 60
  input := some code

/-- What code becomes by a run: what the run has printed, if it exited with 0. -/
def printed (code : String) : RunOutcome → String
  | .exited status stdout _ => if status = 0 then stdout else code
  | .failed _ => code

/-- A question with the runs that it took, each with its outcome, and the reply. -/
structure Turn where
  inquiry : Inquiry
  runs : List (Call × RunOutcome)
  reply : Except Malformed Reply

namespace Session

def answer (session : Session) : Inquiry → Except Malformed Reply × Session
  | .available options =>
    let (found, session) := session.isAvailable options
    (Reply.available <$> found, session)
  | .format options code =>
    let (result, session) := session.format options code
    (Reply.formatted <$> result, session)

def outcome (session : Session) (count : Nat) : RunOutcome :=
  session.script[count]?.getD (.failed "script exhausted")

def runsUpTo (earlier later : Session) : List (Call × RunOutcome) :=
  (later.calls.drop earlier.calls.length).mapIdx fun i call => (call, earlier.outcome i)

/-- A session that is asked questions one after the other. -/
def turns (session : Session) : List Inquiry → List Turn
  | [] => []
  | inquiry :: rest =>
    let (reply, next) := session.answer inquiry
    { inquiry, runs := session.runsUpTo next, reply } :: next.turns rest

end Session

/-! ## Commands -/

theorem ofJson_spelled (words : List String) :
    CommandKey.ofJson (spelled words) = .ok (words.map .text) :=
  mapM_eq_ok.mpr (List.forall₂_map_left_iff.mpr
    (List.forall₂_map_right_iff.mpr (List.forall₂_same.mpr fun _ _ => rfl)))

theorem same_words (words others : List String) :
    CommandKey.same (words.map .text) (others.map .text) = true ↔ words = others := by
  induction words generalizing others with
  | nil => cases others <;> simp [CommandKey.same]
  | cons word words ih => cases others <;> simp [CommandKey.same, PropertyName.same_text, ih]

theorem map_string_injective {words others : List String}
    (h : words.map Json.string = others.map Json.string) : words = others :=
  List.map_injective_iff.mpr (fun _ _ hsame => Json.string.inj hsame) h

theorem spelled_injective {words others : List String} (h : spelled words = spelled others) :
    words = others :=
  map_string_injective (Json.array.inj h)

theorem probe_injective {words others : List String} (h : probe words = probe others) :
    words = others :=
  map_string_injective (List.append_cancel_right (congrArg Call.command h))

/-- Whatever print width the options ask for, a run that formats is no probe: only the one of them
is given any code. -/
theorem formatting_ne_probe (options : FormatterOptions) (words others : List String)
    (code : String) : formatting options words code ≠ probe others :=
  fun h => nomatch congrArg Call.input h

namespace Session

variable {session next last : Session} {runs new more : List (Call × RunOutcome)}
  {options : FormatterOptions} {words : List String}

theorem commandLine_spelled (words : List String) :
    commandLine (spelled words) = .ok (String.intercalate " " words) :=
  bind_eq_ok.mpr ⟨_, rfl, bind_eq_ok.mpr
    ⟨words, mapM_eq_ok.mpr (List.forall₂_map_left_iff.mpr (List.forall₂_same.mpr fun _ _ => rfl)),
      rfl⟩⟩

theorem found_eq_true {outcome : RunOutcome} :
    found outcome = true ↔ ∃ stdout stderr, outcome = .exited 0 stdout stderr := by
  cases outcome <;> simp [found]

/-! ## Runs -/

/-- The runs that a session makes until it is another one take the outcomes to come, in order. -/
structure Makes (session : Session) (new : List (Call × RunOutcome)) (next : Session) : Prop where
  calls : next.calls = session.calls ++ new.map (·.1)
  outcomes : ∀ i run, new[i]? = some run → run.2 = session.outcome i
  script : next.script = session.script.drop new.length

theorem makes_nil (session : Session) : Makes session [] session where
  calls := by simp
  outcomes := by simp
  script := rfl

theorem run_eq (session : Session) (call : Call) : session.run call = (session.outcome 0,
    { session with calls := session.calls ++ [call], script := session.script.tail }) := by
  unfold run outcome
  cases hscript : session.script <;> rfl

theorem makes_run (session : Session) (call : Call) :
    Makes session [(call, (session.run call).1)] (session.run call).2 := by
  rw [run_eq]
  refine ⟨rfl, fun i run hrun => ?_, List.drop_one.symm⟩
  cases i with
  | zero =>
    cases hrun
    rfl
  | succ i => cases hrun

/-- The calls of one stretch and those of the next are the calls of both, one after the other. -/
theorem Makes.trans (h : Makes session new next) (hmore : Makes next more last) :
    Makes session (new ++ more) last where
  calls := by rw [hmore.calls, h.calls, List.map_append, List.append_assoc]
  outcomes := by
    intro i run hrun
    rw [List.getElem?_append] at hrun
    split at hrun
    · exact h.outcomes i run hrun
    · rw [hmore.outcomes _ run hrun, outcome, outcome, h.script, List.getElem?_drop]
      congr 3
      omega
  script := by rw [hmore.script, h.script, List.drop_drop, List.length_append]

/-- The calls between two sessions can be read off them. -/
theorem Makes.runsUpTo (h : Makes session new next) : session.runsUpTo next = new := by
  rw [Session.runsUpTo, h.calls, List.drop_left]
  apply List.ext_getElem?
  intro i
  rw [List.getElem?_mapIdx, List.getElem?_map]
  cases hrun : new[i]? with
  | none => rfl
  | some run => simp [← h.outcomes i run hrun]

/-! ## What a session knows -/

def knows (session : Session) (words : List String) : Option Bool :=
  (session.known.find? fun (key, _) => key.same (words.map .text)).map (·.2)

/-- Whether a command is taken to be there. -/
def isThere (session : Session) (words : List String) : Bool :=
  (session.knows words).getD false

/-- What a session knows comes from the probes among its runs, at most one for a command and none
for the empty one. -/
structure Reflects (session : Session) (runs : List (Call × RunOutcome)) : Prop where
  knows : ∀ words available, session.knows words = some available ↔
    ∃ outcome, (probe words, outcome) ∈ runs ∧ found outcome = available
  once : runs.Pairwise fun first second => ∀ words, ¬(first.1 = probe words ∧ second.1 = probe words)
  named : ∀ outcome, (probe [], outcome) ∉ runs

/-- What a session knows it knows later on. -/
def Recalls (earlier later : Session) : Prop :=
  ∀ words available, earlier.knows words = some available → later.knows words = some available

/-- Nothing more is to be found out about a command. -/
def Settled (session : Session) (words : List String) : Prop :=
  words = [] ∨ (session.knows words).isSome = true

theorem reflects_start (script : List RunOutcome) : Reflects { script } [] where
  knows := by simp [knows]
  once := .nil
  named := by simp

theorem Reflects.knows_nil (h : Reflects session runs) : session.knows [] = none := by
  rw [Option.eq_none_iff_forall_ne_some]
  intro available hknows
  obtain ⟨outcome, hmem, _⟩ := (h.knows [] available).mp hknows
  exact h.named outcome hmem

/-- A run that is no probe adds nothing to what is known. -/
theorem Reflects.append_other (h : Reflects session runs) (hknown : next.known = session.known)
    {run : Call × RunOutcome} (hrun : ∀ words, run.1 ≠ probe words) : Reflects next (runs ++ [run]) where
  knows := by
    intro words available
    have hother : ∀ outcome, (probe words, outcome) ≠ run :=
      fun outcome hsame => hrun words (congrArg Prod.fst hsame.symm)
    have hsame : next.knows words = session.knows words := by rw [Session.knows, hknown]; rfl
    simp [hsame, h.knows, hother]
  once := List.pairwise_append.mpr ⟨h.once, List.pairwise_singleton _ _,
    fun first _ second hsecond words hboth =>
      hrun words (List.mem_singleton.mp hsecond ▸ hboth.2)⟩
  named := by
    intro outcome hmem
    rcases List.mem_append.mp hmem with hold | hnew
    · exact h.named outcome hold
    · exact hrun [] (congrArg Prod.fst (List.mem_singleton.mp hnew).symm)

/-- An answer that is added is known from then on, unless its command already had one. -/
theorem knows_append {available : Bool}
    (h : next.known = session.known ++ [(words.map .text, available)]) (others : List String) :
    next.knows others =
      (session.knows others).or (if words = others then some available else none) := by
  rw [Session.knows, h, List.find?_append, Option.map_or]
  congr 1
  by_cases hsame : words = others
  · subst hsame
    simp [(same_words words words).mpr rfl]
  · have hnot : ¬CommandKey.same (words.map .text) (others.map .text) = true :=
      fun hkey => hsame ((same_words words others).mp hkey)
    simp [hnot, hsame]

/-- The probe of a command that nothing is known about was never run. -/
theorem Reflects.not_probed (h : Reflects session runs) (hnone : session.knows words = none)
    (outcome : RunOutcome) : (probe words, outcome) ∉ runs := by
  intro hmem
  have hknows := (h.knows words (found outcome)).mpr ⟨outcome, hmem, rfl⟩
  rw [hnone] at hknows
  cases hknows

/-- The probe of a command that nothing is known about tells whether it is there. -/
theorem Reflects.append_probe (h : Reflects session runs) (hnone : session.knows words = none)
    (hne : words ≠ []) {outcome : RunOutcome}
    (hknown : next.known = session.known ++ [(words.map .text, found outcome)]) :
    Reflects next (runs ++ [(probe words, outcome)]) ∧ Recalls session next ∧
      next.knows words = some (found outcome) := by
  have hfind := knows_append hknown
  have hnever := h.not_probed hnone
  refine ⟨⟨fun others available => ?_, ?_, fun other hmem => ?_⟩, fun others available hknows => ?_, ?_⟩
  · rw [hfind]
    -- Only the command just probed is known in a new way.
    by_cases hsame : words = others
    · subst hsame
      simp [hnone, hnever]
    · have hother : ∀ other, (probe others, other) ≠ (probe words, outcome) :=
        fun other heq => hsame (probe_injective (congrArg Prod.fst heq)).symm
      simp [hsame, h.knows, hother]
  · refine List.pairwise_append.mpr ⟨h.once, List.pairwise_singleton _ _,
      fun first hfirst second hsecond others hboth => ?_⟩
    rw [List.mem_singleton.mp hsecond] at hboth
    cases probe_injective hboth.2
    exact hnever first.2 (hboth.1 ▸ hfirst)
  · rcases List.mem_append.mp hmem with hold | hnew
    · exact h.named other hold
    · exact hne (probe_injective (congrArg Prod.fst (List.mem_singleton.mp hnew))).symm
  · rw [hfind, hknows, Option.some_or]
  · rw [hfind, hnone, if_pos rfl, Option.none_or]

/-! ## One question -/

/-- The reply of a turn and the runs that it took, where `there` tells which commands are there. The
probe may be among the runs; the run that formats comes last. -/
inductive Answered (there : List String → Bool) : Turn → Prop where
  | available {options : FormatterOptions} {words : List String}
      {probes : List (Call × RunOutcome)} (hcommand : options.command = spelled words)
      (hprobes : ∀ run ∈ probes, run.1 = probe words) :
      Answered there ⟨.available options, probes, .ok (.available (there words))⟩
  | left {options : FormatterOptions} {words : List String} {probes : List (Call × RunOutcome)}
      {code : String} (hcommand : options.command = spelled words)
      (hprobes : ∀ run ∈ probes, run.1 = probe words) (hthere : there words = false) :
      Answered there ⟨.format options code, probes, .ok (.formatted code)⟩
  | run {options : FormatterOptions} {words : List String} {probes : List (Call × RunOutcome)}
      {code : String} (outcome : RunOutcome) (hcommand : options.command = spelled words)
      (hprobes : ∀ run ∈ probes, run.1 = probe words) (hthere : there words = true) :
      Answered there ⟨.format options code, probes ++ [(formatting options words code, outcome)],
        .ok (.formatted (printed code outcome))⟩

/-- Whether a turn is answered rightly depends only on whether its own command is there. -/
theorem Answered.congr {there other : List String → Bool} {turn : Turn} (h : Answered there turn)
    (hsame : ∀ words, turn.inquiry.options.command = spelled words → there words = other words) :
    Answered other turn := by
  cases h with
  | available hcommand hprobes =>
    rw [hsame _ hcommand]
    exact .available hcommand hprobes
  | left hcommand hprobes hthere => exact .left hcommand hprobes (hsame _ hcommand ▸ hthere)
  | run outcome hcommand hprobes hthere =>
    exact .run outcome hcommand hprobes (hsame _ hcommand ▸ hthere)

theorem isAvailable_nil (hcommand : options.command = spelled []) :
    session.isAvailable options = (.ok false, session) := by
  rw [isAvailable, hcommand]
  rfl

/-- For a command that has words, the answer is the one that is known or else that of a probe. -/
theorem isAvailable_of_ne (hcommand : options.command = spelled words) (hne : words ≠ []) :
    session.isAvailable options =
      (.ok (session.isKnownOrProbe (words.map .text) (words.map .string)).1,
        (session.isKnownOrProbe (words.map .text) (words.map .string)).2) := by
  have htruthy : options.command.isTruthy = true := by
    rw [hcommand, spelled, Json.isTruthy]
    simp [hne]
  rw [isAvailable, htruthy, hcommand, ofJson_spelled]
  rfl

def probed (session : Session) (words : List String) : Session :=
  { session with
    calls := session.calls ++ [probe words]
    script := session.script.tail
    known := session.known ++ [(words.map .text, found (session.outcome 0))] }

theorem isKnownOrProbe_of_some {available : Bool} (h : session.knows words = some available) :
    session.isKnownOrProbe (words.map .text) (words.map .string) = (available, session) := by
  obtain ⟨entry, hentry, rfl⟩ := Option.map_eq_some_iff.mp h
  rw [isKnownOrProbe, hentry]

theorem isKnownOrProbe_of_none (h : session.knows words = none) :
    session.isKnownOrProbe (words.map .text) (words.map .string) =
      (found (session.outcome 0), session.probed words) := by
  rw [isKnownOrProbe, Option.map_eq_none_iff.mp h, ← probe, run_eq]
  rfl

/-- What a question does to a session, up to the reply: it makes these runs, and then everything is
known about the command. -/
structure Asked (session : Session) (runs : List (Call × RunOutcome)) (words : List String)
    (new : List (Call × RunOutcome)) (next : Session) : Prop where
  makes : Makes session new next
  reflects : Reflects next (runs ++ new)
  recalls : Recalls session next
  settled : Settled next words

theorem asked_nothing (h : Reflects session runs) (hsettled : Settled session words) :
    Asked session runs words [] session :=
  ⟨makes_nil session, (List.append_nil runs).symm ▸ h, fun _ _ hknows => hknows, hsettled⟩

/-- A command without an answer is probed once, and the answer is that of the probe. -/
theorem asked_probed (h : Reflects session runs) (hnone : session.knows words = none)
    (hne : words ≠ []) :
    Asked session runs words [(probe words, session.outcome 0)] (session.probed words) ∧
      (session.probed words).isThere words = found (session.outcome 0) := by
  have hrun := makes_run session (probe words)
  rw [run_eq] at hrun
  have hknown : (session.probed words).known =
      session.known ++ [(words.map .text, found (session.outcome 0))] := rfl
  obtain ⟨hreflects, hrecalls, hknows⟩ := h.append_probe hnone hne hknown
  refine ⟨⟨⟨hrun.calls, hrun.outcomes, hrun.script⟩, hreflects, hrecalls, .inr ?_⟩, ?_⟩
  · rw [hknows]
    rfl
  · rw [isThere, hknows]
    rfl

/-- Asking for a command makes no call but its probe, and none if the answer is known. -/
theorem asked_isAvailable (h : Reflects session runs) (hcommand : options.command = spelled words) :
    ∃ new next, session.isAvailable options = (.ok (next.isThere words), next) ∧
      Asked session runs words new next ∧ ∀ run ∈ new, run.1 = probe words := by
  by_cases hne : words = []
  · subst hne
    refine ⟨[], session, ?_, asked_nothing h (.inl rfl), by simp⟩
    rw [isAvailable_nil hcommand, isThere, h.knows_nil]
    rfl
  · -- A command that is known already is not probed again.
    rw [isAvailable_of_ne hcommand hne]
    cases hknows : session.knows words with
    | some available =>
      refine ⟨[], session, ?_, asked_nothing h (.inr (by rw [hknows]; rfl)), by simp⟩
      rw [isKnownOrProbe_of_some hknows, isThere, hknows]
      rfl
    | none =>
      obtain ⟨hasked, hthere⟩ := asked_probed h hknows hne
      refine ⟨_, _, ?_, hasked, by simp⟩
      rw [isKnownOrProbe_of_none hknows, hthere]

/-- After the run that formats, the session has its outcome and a warning where it failed. -/
theorem format_of_there (code : String) (hcommand : options.command = spelled words)
    (h : session.isAvailable options = (.ok true, next)) :
    ∃ after, session.format options code = (.ok (printed code (next.outcome 0)), after) ∧
      Makes next [(formatting options words code, next.outcome 0)] after ∧
        after.known = next.known := by
  have hrun := makes_run next (formatting options words code)
  rw [run_eq] at hrun
  rw [format, h, hcommand]
  dsimp only [spelled, Json.elements]
  rw [← formatting, run_eq]
  dsimp only
  cases houtcome : next.outcome 0 with
  | failed text =>
    rw [houtcome] at hrun
    exact ⟨_, rfl, ⟨hrun.calls, hrun.outcomes, hrun.script⟩, rfl⟩
  | exited status stdout stderr =>
    rw [houtcome] at hrun
    dsimp only [printed]
    split
    · exact ⟨_, rfl, ⟨hrun.calls, hrun.outcomes, hrun.script⟩, rfl⟩
    · exact ⟨_, rfl, ⟨hrun.calls, hrun.outcomes, hrun.script⟩, rfl⟩

/-- Where the command is not there, the session has a warning more. -/
theorem format_of_not_there {code : String} (hcommand : options.command = spelled words)
    (h : session.isAvailable options = (.ok false, next)) :
    session.format options code =
      (.ok code, next.warn (.notFound (String.intercalate " " words))) := by
  rw [format, h, hcommand]
  dsimp only
  rw [commandLine_spelled]

theorem Asked.warn (h : Asked session runs words new next) (warning : FormatWarning) :
    Asked session runs words new (next.warn warning) :=
  ⟨⟨h.makes.calls, h.makes.outcomes, h.makes.script⟩,
    ⟨h.reflects.knows, h.reflects.once, h.reflects.named⟩, h.recalls, h.settled⟩

/-- A call that is no probe leaves the answers as they are. -/
theorem Asked.append_other (h : Asked session runs words new next) {run : Call × RunOutcome}
    (hrun : ∀ words, run.1 ≠ probe words) (hmakes : Makes next [run] last)
    (hknown : last.known = next.known) : Asked session runs words (new ++ [run]) last := by
  have hsame : last.knows = next.knows := by
    funext others
    rw [knows, hknown]
    rfl
  refine ⟨h.makes.trans hmakes, ?_, ?_, ?_⟩
  · rw [← List.append_assoc]
    exact h.reflects.append_other hknown hrun
  · rw [Recalls, hsame]
    exact h.recalls
  · rw [Settled, hsame]
    exact h.settled

/-- Every question is answered. -/
theorem answer_eq (h : Reflects session runs) (inquiry : Inquiry)
    (hcommand : inquiry.options.command = spelled words) :
    ∃ reply new next, session.answer inquiry = (reply, next) ∧ Asked session runs words new next ∧
      Answered next.isThere ⟨inquiry, new, reply⟩ := by
  obtain ⟨probes, next, havailable, hasked, hprobes⟩ := asked_isAvailable h hcommand
  cases inquiry with
  | available options =>
    dsimp only [Inquiry.options] at havailable
    refine ⟨_, probes, next, ?_, hasked, .available hcommand hprobes⟩
    rw [answer, havailable]
    rfl
  | format options code =>
    dsimp only [Inquiry.options] at hcommand havailable
    cases hthere : next.isThere words with
    | false =>
      rw [hthere] at havailable
      refine ⟨_, probes, next.warn (.notFound (String.intercalate " " words)), ?_, hasked.warn _,
        .left hcommand hprobes hthere⟩
      rw [answer, format_of_not_there hcommand havailable]
      rfl
    | true =>
      -- The run that formats is no probe, so that it leaves what is known.
      rw [hthere] at havailable
      obtain ⟨last, hformat, hmakes, hknown⟩ := format_of_there code hcommand havailable
      have hisThere : last.isThere words = true := by rwa [isThere, knows, hknown]
      refine ⟨_, _, last, ?_, hasked.append_other (formatting_ne_probe _ _ · _) hmakes hknown,
        .run _ hcommand hprobes hisThere⟩
      rw [answer, hformat]
      rfl

/-! ## All questions -/

theorem isThere_of_recalls (hlast : Reflects last runs) (hrecalls : Recalls next last)
    (hnext : next.knows [] = none) (hsettled : Settled next words) :
    next.isThere words = last.isThere words := by
  rcases hsettled with rfl | hknows
  · rw [isThere, isThere, hnext, hlast.knows_nil]
  · obtain ⟨available, hknows⟩ := Option.isSome_iff_exists.mp hknows
    rw [isThere, isThere, hknows, hrecalls words available hknows]

/-- What a session knows in the end, it has answered all along. -/
theorem turns_eq {inquiries : List Inquiry} (h : Reflects session runs)
    (hcommands : ∀ inquiry ∈ inquiries, ∃ words, inquiry.options.command = spelled words) :
    ∃ last, Reflects last (runs ++ (session.turns inquiries).flatMap (·.runs)) ∧
      Recalls session last ∧ (session.turns inquiries).map (·.inquiry) = inquiries ∧
        ∀ turn ∈ session.turns inquiries, Answered last.isThere turn := by
  induction inquiries generalizing session runs with
  | nil => exact ⟨session, by simpa [turns] using h, fun _ _ hknows => hknows, rfl, by simp [turns]⟩
  | cons inquiry rest ih =>
    obtain ⟨⟨words, hcommand⟩, hrest⟩ := List.forall_mem_cons.mp hcommands
    -- What is known only grows, so that an answer given early is still right in the end.
    obtain ⟨reply, new, next, hanswer, hasked, hanswered⟩ := answer_eq h inquiry hcommand
    obtain ⟨last, hlast, hrecalls, hinquiries, hlater⟩ := ih hasked.reflects hrest
    have hturns : session.turns (inquiry :: rest) = ⟨inquiry, new, reply⟩ :: next.turns rest := by
      rw [turns, hanswer]
      dsimp only
      rw [hasked.makes.runsUpTo]
    rw [hturns]
    refine ⟨last, ?_, fun others available hknows => hrecalls _ _ (hasked.recalls _ _ hknows), ?_,
      List.forall_mem_cons.mpr ⟨hanswered.congr fun others hothers => ?_, hlater⟩⟩
    · rw [List.flatMap_cons, ← List.append_assoc]
      exact hlast
    · rw [List.map_cons, hinquiries]
    · rw [spelled_injective (hothers.symm.trans hcommand)]
      exact isThere_of_recalls hlast hrecalls hasked.reflects.knows_nil hasked.settled

/-- A session that is asked about commands answers every question, whatever its runs come to. The
probe of a command is run at most once, and never for the empty command. Every reply about a command
is that its probe exited with 0 or not, and code is replaced only by what its own run has printed,
where both that probe and that run exited with 0. -/
theorem turns_answered (script : List RunOutcome) {inquiries : List Inquiry}
    (hcommands : ∀ inquiry ∈ inquiries, ∃ words, inquiry.options.command = spelled words) :
    let turns := ({ script } : Session).turns inquiries
    let runs := turns.flatMap (·.runs)
    turns.map (·.inquiry) = inquiries ∧
      (runs.Pairwise fun first second =>
        ∀ words, ¬(first.1 = probe words ∧ second.1 = probe words)) ∧
      (∀ outcome, (probe [], outcome) ∉ runs) ∧
      ∃ there : List String → Bool,
        (∀ words, there words = true ↔
          ∃ stdout stderr, (probe words, .exited 0 stdout stderr) ∈ runs) ∧
        ∀ turn ∈ turns, Answered there turn := by
  intro turns runs
  obtain ⟨last, hlast, _, hinquiries, hanswered⟩ := turns_eq (reflects_start script) hcommands
  rw [List.nil_append] at hlast
  refine ⟨hinquiries, hlast.once, hlast.named, last.isThere, fun words => ?_, hanswered⟩
  -- A command is there if the one run that looked for it ended well.
  have hthere : last.isThere words = true ↔ last.knows words = some true := by
    rw [isThere]
    cases last.knows words <;> simp
  rw [hthere, hlast.knows]
  constructor
  · rintro ⟨outcome, hmem, hfound⟩
    obtain ⟨stdout, stderr, rfl⟩ := found_eq_true.mp hfound
    exact ⟨stdout, stderr, hmem⟩
  · rintro ⟨stdout, stderr, hmem⟩
    exact ⟨_, hmem, rfl⟩

/-! ## A session with two commands -/

def commanded (words : List String) : FormatterOptions :=
  { command := spelled words }

/-- Code is formatted twice by a command that is there, and in between another one is asked for. -/
def interleaved : List Inquiry :=
  [.format (commanded ["prettier"]) "type A = void;", .available (commanded ["missing"]),
    .format (commanded ["prettier"]) "type B = void;", .available (commanded ["missing"])]

def interleavedOutcomes : List RunOutcome :=
  [.exited 0 "3.3.3" "", .exited 2 "type" "SyntaxError", .failed "no such file",
    .exited 0 "type B = void" ""]

theorem interleaved_runs :
    (({ script := interleavedOutcomes } : Session).turns interleaved).flatMap (·.runs) =
      [(probe ["prettier"], .exited 0 "3.3.3" ""),
        (formatting (commanded ["prettier"]) ["prettier"] "type A = void;",
          .exited 2 "type" "SyntaxError"),
        (probe ["missing"], .failed "no such file"),
        (formatting (commanded ["prettier"]) ["prettier"] "type B = void;",
          .exited 0 "type B = void" "")] :=
  rfl

/-- The theorem at that session: one command is there, and the other is not. -/
theorem turns_answered_interleaved :
    (∀ inquiry ∈ interleaved, ∃ words, inquiry.options.command = spelled words) ∧
    ∃ there : List String → Bool, there ["prettier"] = true ∧ there ["missing"] = false ∧
      ∀ turn ∈ ({ script := interleavedOutcomes } : Session).turns interleaved,
        Answered there turn := by
  have hcommands : ∀ inquiry ∈ interleaved, ∃ words, inquiry.options.command = spelled words := by
    simp [interleaved, Inquiry.options, commanded]
  obtain ⟨_, _, _, there, hthere, hanswered⟩ := turns_answered interleavedOutcomes hcommands
  rw [interleaved_runs] at hthere
  refine ⟨hcommands, there, (hthere _).mpr ⟨"3.3.3", "", by simp⟩, ?_, hanswered⟩
  rw [Bool.eq_false_iff, Ne, hthere]
  simp [probe, formatting, Session.formatWords]

end Session

end ApiTypes
