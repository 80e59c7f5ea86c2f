import Mathlib.Data.List.Forall2
import ApiTypes.CommandLine.Run
import ApiTypes.CommandLine.Words
import ApiTypes.Proofs.Outcome
import ApiTypes.Proofs.Tasks

/-!
# What a run delivers

The work on the sources is quiet, so a run that is stopped by one of them has printed nothing and
touched no file. The texts are delivered when all sources are done; only then can a file be left empty,
by a text that its encoding cannot write. Where nothing is formatted and no comment on the run is asked
for, each text is the one that its source gives alone, whatever comes before it.
-/

namespace ApiTypes

def Settings.Unformatted (settings : Settings) : Prop :=
  ∀ options, settings.formatterOptions = .ok options → options.enabled.isTruthy = false

instance (settings : Settings) : Decidable settings.Unformatted :=
  decidable_of_iff (∀ options ∈ settings.formatterOptions.toOption, options.enabled.isTruthy = false)
    ⟨fun h options hoptions => h options (by rw [hoptions]; rfl),
      fun h options hmem => h options (eq_ok_of_toOption hmem)⟩

namespace Text

/-- A text without escape characters is plain. -/
theorem plainFrom_eq_self {cs : List Char} (h : '\x1b' ∉ cs) : plainFrom 0 cs = cs := by
  induction cs with
  | nil => rfl
  | cons c cs ih =>
    have hnone : sequenceLength? (c :: cs) = none := by
      unfold sequenceLength?
      split
      · rename_i heq
        cases heq
        exact absurd List.mem_cons_self h
      · rfl
    rw [plainFrom, hnone, ih fun hmem => h (List.mem_cons_of_mem c hmem)]

theorem plain_eq_self {s : String} (h : '\x1b' ∉ s.toList) : plain s = s := by
  rw [plain, plainFrom_eq_self h, String.ofList_toList]

end Text

/-! ## One source -/

namespace Generation

variable {settings : Settings}

/-- Without formatting no commands are run, so that the session does not matter and stays. -/
theorem finish_unformatted (h : settings.Unformatted) (session : Session) (code : String) :
    finish settings session code = (settings.formatterOptions.map fun _ => code, session) := by
  unfold finish
  cases hoptions : settings.formatterOptions with
  | error cause => rfl
  | ok options => exact if_neg (by simp [h options hoptions])

/-- Without a formatter the text is that of the analysis alone: no session is asked and none
changes. -/
theorem ofAnalysis_unformatted (h : settings.Unformatted) (commandLine : String)
    (session other : Session) (analysis : Analysis) :
    ofAnalysis settings commandLine session analysis =
      ((ofAnalysis settings commandLine other analysis).1, session) := by
  unfold ofAnalysis
  cases code settings commandLine analysis with
  | error error => rfl
  | ok code =>
    simp only [finish_unformatted h]
    cases settings.formatterOptions <;> rfl

/-- What is generated is made of texts of the parts. -/
theorem texts_of_ofAnalysis {commandLine : String} {session : Session} {analysis : Analysis}
    {code : String} (h : (ofAnalysis settings commandLine session analysis).1 = .ok code) :
    ∃ list, texts settings analysis = .ok list := by
  cases htexts : texts settings analysis with
  | ok list => exact ⟨list, rfl⟩
  | error error =>
    have hcode : Generation.code settings commandLine analysis = .error error := by
      rw [Generation.code, htexts]
      rfl
    rw [ofAnalysis, hcode] at h
    cases h

end Generation

namespace CommandLine

variable {world : World} {settings : Settings} {header : Except FileError String}
  {begun final : Surroundings} {location text : String} {locations : List String}

/-- The text that a location gives alone, in a session of its own. -/
def generated (world : World) (settings : Settings) (location : String) : Except Error String := do
  let members ← Source.load world location
  let analysis ← Analysis.ofJson (.object members)
  (Generation.ofAnalysis settings "" {} analysis).1

/-- The description at a location can be loaded, analysed and written down. -/
def Renders (world : World) (settings : Settings) (location : String) : Prop :=
  ∃ members analysis texts, Source.load world location = .ok members ∧
    Analysis.ofJson (.object members) = .ok analysis ∧ Generation.texts settings analysis = .ok texts

theorem quiet_generate (settings : Settings) (commandLine : String) (analysis : Analysis) :
    (generate settings commandLine analysis).Quiet := by
  refine Task.Quiet.bind (fun _ => ⟨rfl, rfl⟩) fun surroundings => ?_
  dsimp only
  refine Task.Quiet.bind (Task.quiet_modify fun _ => ⟨rfl, rfl⟩) fun _ => ?_
  exact Task.Quiet.bind (Task.quiet_report _) fun _ => Task.quiet_attempt _

/-- However the work on a source ends, nothing was printed and no file was touched. -/
theorem quiet_runSource (world : World) (settings : Settings) (header : Except FileError String)
    (location : String) : (runSource world settings header location).Quiet := by
  refine (Task.quiet_report _).bind fun _ => (Task.quiet_attempt _).bind fun members => ?_
  refine (Task.quiet_report _).bind fun _ => (Task.quiet_attempt _).bind fun analysis => ?_
  refine (Task.quiet_report _).bind fun _ => (Task.quiet_report _).bind fun _ => ?_
  refine (Task.quiet_attempt _).bind fun _ => (Task.quiet_guarded _).bind fun commandLine => ?_
  exact quiet_generate settings commandLine analysis

theorem quiet_runSources (world : World) (settings : Settings) (header : Except FileError String)
    (locations : List String) : (runSources world settings header locations).Quiet := by
  induction locations with
  | nil => exact Task.quiet_pure []
  | cons location locations ih =>
    refine (quiet_runSource world settings header location).bind fun text => ?_
    exact ih.bind fun texts => Task.quiet_pure _

theorem quiet_compose (world : World) (arguments : Arguments) : (compose world arguments).Quiet := by
  refine (Task.quiet_guarded _).bind fun settings => ?_
  exact (quiet_runSources _ _ _ _).bind fun texts => Task.quiet_pure _

/-! ## What the sources give -/

theorem generate_eq_ok {commandLine : String} {analysis : Analysis}
    (h : generate settings commandLine analysis begun = .ok text final) :
    (Generation.ofAnalysis settings commandLine begun.session analysis).1 = .ok text := by
  obtain ⟨_, _, ⟨⟩, h⟩ := Task.bind_eq_ok.mp h
  obtain ⟨_, _, _, h⟩ := Task.bind_eq_ok.mp h
  obtain ⟨_, _, _, h⟩ := Task.bind_eq_ok.mp h
  exact (Task.attempt_eq_ok.mp h).1

theorem generate_ok {commandLine : String} {analysis : Analysis} {begun : Surroundings}
    (h : (Generation.ofAnalysis settings commandLine begun.session analysis).1 = .ok text) :
    ∃ final, generate settings commandLine analysis begun = .ok text final :=
  ⟨_, Task.bind_eq_ok.mpr ⟨_, _, rfl, Task.bind_eq_ok.mpr ⟨_, _, rfl, Task.bind_eq_ok.mpr
    ⟨_, _, rfl, Task.attempt_eq_ok.mpr ⟨h, rfl⟩⟩⟩⟩⟩

/-- A source has a text only if nothing fails on the way to it. -/
theorem runSource_eq_ok (h : runSource world settings header location begun = .ok text final) :
    ∃ members analysis commandLine session, Source.load world location = .ok members ∧
      Analysis.ofJson (.object members) = .ok analysis ∧ header = .ok commandLine ∧
      (Generation.ofAnalysis settings commandLine session analysis).1 = .ok text := by
  obtain ⟨_, _, _, h⟩ := Task.bind_eq_ok.mp h
  obtain ⟨members, _, hmembers, h⟩ := Task.bind_eq_ok.mp h
  obtain ⟨_, _, _, h⟩ := Task.bind_eq_ok.mp h
  obtain ⟨analysis, _, hanalysis, h⟩ := Task.bind_eq_ok.mp h
  obtain ⟨_, _, _, h⟩ := Task.bind_eq_ok.mp h
  obtain ⟨_, _, _, h⟩ := Task.bind_eq_ok.mp h
  obtain ⟨_, _, _, h⟩ := Task.bind_eq_ok.mp h
  obtain ⟨commandLine, _, hheader, h⟩ := Task.bind_eq_ok.mp h
  -- A header that cannot be shown would have stopped the run.
  have hshown : header = .ok commandLine := by
    cases header with
    | ok shown => exact congrArg Except.ok (Except.ok.inj (Task.guarded_eq_ok.mp hheader).1)
    | error cause => cases (Task.guarded_eq_ok.mp hheader).1
  exact ⟨members, analysis, commandLine, _, (Task.attempt_eq_ok.mp hmembers).1,
    (Task.attempt_eq_ok.mp hanalysis).1, hshown, generate_eq_ok h⟩

/-- A source whose text alone can be made has that text, whatever came before it. -/
theorem runSource_ok (h : settings.Unformatted) (htext : generated world settings location = .ok text)
    (begun : Surroundings) :
    ∃ final, runSource world settings (.ok "") location begun = .ok text final := by
  obtain ⟨members, hmembers, htext⟩ := bind_eq_ok.mp htext
  obtain ⟨analysis, hanalysis, htext⟩ := bind_eq_ok.mp htext
  obtain ⟨texts, htexts⟩ := Generation.texts_of_ofAnalysis htext
  have hrun : ∀ session, (Generation.ofAnalysis settings "" session analysis).1 = .ok text := by
    intro session
    rw [Generation.ofAnalysis_unformatted h "" session {}, htext]
  obtain ⟨final, hfinal⟩ := generate_ok (hrun _)
  refine ⟨final, ?_⟩
  -- Loading, analysing, writing down and the header go well; what is between them only reports.
  unfold runSource
  refine Task.bind_eq_ok.mpr ⟨_, _, rfl, Task.bind_eq_ok.mpr ⟨_, _,
    Task.attempt_eq_ok.mpr ⟨hmembers, rfl⟩, ?_⟩⟩
  refine Task.bind_eq_ok.mpr ⟨_, _, rfl, Task.bind_eq_ok.mpr ⟨_, _,
    Task.attempt_eq_ok.mpr ⟨hanalysis, rfl⟩, ?_⟩⟩
  refine Task.bind_eq_ok.mpr ⟨_, _, rfl, Task.bind_eq_ok.mpr ⟨_, _, rfl, ?_⟩⟩
  refine Task.bind_eq_ok.mpr ⟨_, _, Task.attempt_eq_ok.mpr ⟨htexts, rfl⟩, ?_⟩
  exact Task.bind_eq_ok.mpr ⟨_, _, Task.guarded_eq_ok.mpr ⟨rfl, rfl⟩, hfinal⟩

/-- What a run makes of one source is what the library generates for it. -/
theorem generated_of_runSource (h : settings.Unformatted)
    (hrun : runSource world settings (.ok "") location begun = .ok text final) :
    generated world settings location = .ok text := by
  obtain ⟨members, analysis, commandLine, session, hmembers, hanalysis, ⟨⟩, hcode⟩ :=
    runSource_eq_ok hrun
  have halone : (Generation.ofAnalysis settings "" {} analysis).1 = .ok text := by
    rw [Generation.ofAnalysis_unformatted h "" session {}] at hcode
    exact hcode
  exact bind_eq_ok.mpr ⟨members, hmembers, bind_eq_ok.mpr ⟨analysis, hanalysis, halone⟩⟩

theorem renders_of_runSource
    (h : runSource world settings header location begun = .ok text final) :
    Renders world settings location := by
  obtain ⟨members, analysis, commandLine, session, hmembers, hanalysis, _, hcode⟩ :=
    runSource_eq_ok h
  obtain ⟨texts, htexts⟩ := Generation.texts_of_ofAnalysis hcode
  exact ⟨members, analysis, texts, hmembers, hanalysis, htexts⟩

variable {texts : List String}

/-- The sources are worked through in order, each beginning where the one before it left the
surroundings. -/
theorem runSources_cons_eq_ok :
    runSources world settings header (location :: locations) begun = .ok texts final ↔
      ∃ text middle rest, runSource world settings header location begun = .ok text middle ∧
        runSources world settings header locations middle = .ok rest final ∧
          text :: rest = texts := by
  rw [runSources, Task.bind_eq_ok]
  constructor
  · rintro ⟨text, middle, htext, h⟩
    obtain ⟨rest, _, hrest, ⟨⟩⟩ := Task.bind_eq_ok.mp h
    exact ⟨text, middle, rest, htext, hrest, rfl⟩
  · rintro ⟨text, middle, rest, htext, hrest, rfl⟩
    exact ⟨text, middle, htext, Task.bind_eq_ok.mpr ⟨rest, final, hrest, rfl⟩⟩

theorem renders_of_runSources
    (h : runSources world settings header locations begun = .ok texts final) :
    ∀ location ∈ locations, Renders world settings location := by
  induction locations generalizing begun texts with
  | nil => simp
  | cons location locations ih =>
    obtain ⟨_, _, _, htext, hrest, _⟩ := runSources_cons_eq_ok.mp h
    exact List.forall_mem_cons.mpr ⟨renders_of_runSource htext, ih hrest⟩

/-- The texts of a run are those that its sources give alone, in their order. -/
theorem generated_of_runSources (h : settings.Unformatted)
    (hrun : runSources world settings (.ok "") locations begun = .ok texts final) :
    List.Forall₂ (fun location text => generated world settings location = .ok text)
      locations texts := by
  induction locations generalizing begun texts with
  | nil =>
    cases hrun
    exact .nil
  | cons location locations ih =>
    obtain ⟨text, middle, rest, htext, hrest, rfl⟩ := runSources_cons_eq_ok.mp hrun
    exact .cons (generated_of_runSource h htext) (ih hrest)

/-- If every source has a text, the run works through them all. -/
theorem runSources_ok (h : settings.Unformatted)
    (htexts : List.Forall₂ (fun location text => generated world settings location = .ok text)
      locations texts) (begun : Surroundings) :
    ∃ final, runSources world settings (.ok "") locations begun = .ok texts final := by
  induction htexts generalizing begun with
  | nil => exact ⟨begun, rfl⟩
  | cons htext _ ih =>
    obtain ⟨middle, hmiddle⟩ := runSource_ok h htext begun
    obtain ⟨final, hfinal⟩ := ih middle
    exact ⟨final, runSources_cons_eq_ok.mpr ⟨_, middle, _, hmiddle, hfinal, rfl⟩⟩

/-! ## A run -/

variable {console : Console} {arguments : Arguments} {words : List String} {task : Task Unit}
  {verbose : Bool}

/-- The output is composed of the texts of all the sources, so it is there only when the last of
them is done. -/
theorem compose_eq_ok : compose world arguments begun = .ok text final ↔
    ∃ settings texts, effectiveSettings world arguments = .ok settings ∧
      runSources world settings (headerIfWanted world arguments settings) arguments.sources begun =
        .ok texts final ∧ "\n".intercalate texts = text := by
  rw [compose, Task.bind_eq_ok]
  constructor
  · rintro ⟨settings, _, hsettings, h⟩
    obtain ⟨hread, rfl⟩ := Task.guarded_eq_ok.mp hsettings
    obtain ⟨texts, _, htexts, ⟨⟩⟩ := Task.bind_eq_ok.mp h
    exact ⟨settings, texts, hread, htexts, rfl⟩
  · rintro ⟨settings, texts, hsettings, htexts, rfl⟩
    exact ⟨settings, begun, Task.guarded_eq_ok.mpr ⟨hsettings, rfl⟩,
      Task.bind_eq_ok.mpr ⟨texts, final, htexts, rfl⟩⟩

/-- The exit code is zero only for work that came to its end. -/
theorem exitCode_outcomeOf_eq_zero (h : (outcomeOf world verbose task).exitCode = 0) :
    ∃ final, task (start world verbose) = .ok () final ∧
      (outcomeOf world verbose task).surroundings = final := by
  rw [outcomeOf] at h ⊢
  cases hresult : task (start world verbose) with
  | ok _ final => exact ⟨final, rfl, rfl⟩
  | error stop final =>
    rw [hresult] at h
    cases h

/-- Any other exit code is that of work that was stopped. -/
theorem exitCode_outcomeOf_ne_zero (h : (outcomeOf world verbose task).exitCode ≠ 0) :
    ∃ stop final, task (start world verbose) = .error stop final ∧
      (outcomeOf world verbose task).surroundings = final := by
  rw [outcomeOf] at h ⊢
  cases hresult : task (start world verbose) with
  | ok _ final =>
    rw [hresult] at h
    exact absurd rfl h
  | error stop final => exact ⟨stop, final, rfl, rfl⟩

theorem untouched_start (world : World) (verbose : Bool) : Task.Untouched {} (start world verbose) :=
  ⟨rfl, rfl⟩

/-- Nothing has left the program yet when its text is composed. -/
theorem untouched_of_compose
    (h : compose world arguments (start world arguments.verbose) = .ok text final) :
    Task.Untouched {} final :=
  (untouched_start world arguments.verbose).trans ((quiet_compose world arguments).of_ok h)

/-- The text of a run is done and its output file can be opened, but the encoding of the file cannot
write the text. -/
def CutShort (console : Console) (world : World) (words : List String) (path : String) : Prop :=
  ∃ arguments text done, console.read world words = .call arguments ∧
    arguments.output = some path ∧
    compose world arguments (start world arguments.verbose) = .ok text done ∧
    Task.writeError? world path = none ∧ world.encoding.spells text = false

/-- A run that does not end well has printed nothing, and has touched no file unless it was cut
short. -/
theorem untouched_of_exitCode (h : (run console world words).exitCode ≠ 0) :
    (run console world words).output = "" ∧
      ((run console world words).files = [] ∨ ∃ path, CutShort console world words path) := by
  unfold run at h ⊢
  cases hread : console.read world words with
  | misuse => exact ⟨rfl, .inl rfl⟩
  | broken crash => exact ⟨rfl, .inl rfl⟩
  | answer text =>
    -- An answer fails only where it cannot be printed, and then nothing is.
    rw [hread] at h
    obtain ⟨stop, final, hprint, hfinal⟩ := exitCode_outcomeOf_ne_zero h
    dsimp only [Outcome.output, Outcome.files]
    rw [hfinal, ← Task.print_error hprint]
    exact ⟨rfl, .inl rfl⟩
  | call arguments =>
    rw [hread] at h
    obtain ⟨stop, final, hwork, hfinal⟩ := exitCode_outcomeOf_ne_zero h
    dsimp only [Outcome.output, Outcome.files]
    rw [hfinal]
    rw [work, Task.bind_apply] at hwork
    cases htext : compose world arguments (start world arguments.verbose) with
    | error stop middle =>
      -- The text was never composed, and composing is quiet.
      rw [htext] at hwork
      cases hwork
      have huntouched := (untouched_start world arguments.verbose).trans
        ((quiet_compose world arguments).of_error htext)
      exact ⟨huntouched.output, .inl huntouched.files⟩
    | ok text middle =>
      -- The text was there and could not be delivered.
      rw [htext] at hwork
      obtain ⟨houtput, hfiles⟩ := Task.deliver_error (untouched_of_compose htext) hwork
      refine ⟨houtput, hfiles.imp_right ?_⟩
      rintro ⟨path, hpath, hopen, hspells⟩
      exact ⟨path, arguments, text, middle, hread, hpath, htext, hopen, hspells⟩

/-- A run that the console reads as a call is the work of that call. -/
theorem run_call (hread : console.read world words = .call arguments) :
    run console world words =
      outcomeOf world arguments.verbose (work console world arguments) := by
  rw [run, hread]

/-- A run that is cut short leaves the output file, and leaves it empty. -/
theorem CutShort.files {path : String} (h : CutShort console world words path) :
    (run console world words).exitCode = 1 ∧ (run console world words).files = [(path, "")] := by
  obtain ⟨arguments, text, middle, hread, hpath, htext, hopen, hspells⟩ := h
  obtain ⟨final, hfinal, hfiles⟩ := Task.deliver_cut (untouched_of_compose htext) hopen hspells
  have hwork : work console world arguments (start world arguments.verbose) =
      .error (.crashed .outputEncoding) final := by
    rw [work, Task.bind_apply, htext, hpath]
    exact hfinal
  rw [run_call hread, outcomeOf, hwork]
  exact ⟨rfl, hfiles⟩

/-- The text is in the output file, if there is one. Otherwise it is printed, in the form in which
the console prints; without escape characters that is the text itself. -/
def Outcome.Delivers (outcome : Outcome) (console : Console) (output : Option String)
    (text : String) : Prop :=
  match output with
  | some path => outcome.files = [(path, text)] ∧ outcome.output = ""
  | none => outcome.files = [] ∧ outcome.output = console.plain text ∧
      ('\x1b' ∉ text.toList → outcome.output = text)

/-- A run that ends well has composed a text and delivered it. -/
theorem delivers_of_exitCode (hplain : console.KeepsPlain)
    (hread : console.read world words = .call arguments)
    (h : (run console world words).exitCode = 0) :
    ∃ text done, compose world arguments (start world arguments.verbose) = .ok text done ∧
      (run console world words).Delivers console arguments.output text := by
  rw [run_call hread] at h ⊢
  obtain ⟨final, hwork, hfinal⟩ := exitCode_outcomeOf_eq_zero h
  obtain ⟨text, middle, htext, hdeliver⟩ := Task.bind_eq_ok.mp hwork
  have hdelivered := Task.delivered_of_ok (untouched_of_compose htext) hdeliver
  refine ⟨text, middle, htext, ?_⟩
  dsimp only [Outcome.Delivers, Outcome.files, Outcome.output]
  rw [hfinal]
  cases houtput : arguments.output with
  | some path => rwa [houtput] at hdelivered
  | none =>
    rw [houtput] at hdelivered
    obtain ⟨hfiles, hprinted⟩ := hdelivered
    exact ⟨hfiles, hprinted, fun hescape => hprinted.trans (hplain text hescape)⟩

/-- A run that does not end well has printed nothing, and unless it was cut short, it leaves all files
as they are. One that is cut short leaves its output file empty. One that ends well has written down
all its sources; with neither comment nor formatting it delivers the texts that they give alone, in
their order, one below the other. It does end well then, unless one of the sources gives no text or
the text cannot be delivered. -/
theorem run_all_or_nothing (console : Console) (hplain : console.KeepsPlain) (world : World)
    (words : List String) :
    ((run console world words).exitCode ≠ 0 → (run console world words).output = "" ∧
      ((∀ path, ¬CutShort console world words path) → (run console world words).files = [])) ∧
    (∀ path, CutShort console world words path →
      (run console world words).exitCode = 1 ∧ (run console world words).files = [(path, "")]) ∧
    ∀ arguments, console.read world words = .call arguments →
      ((run console world words).exitCode = 0 →
        ∃ settings, effectiveSettings world arguments = .ok settings ∧
          (∀ location ∈ arguments.sources, Renders world settings location) ∧
          (settings.generationComment.isTruthy = false → settings.Unformatted →
            ∃ texts, List.Forall₂ (fun location text => generated world settings location = .ok text)
                arguments.sources texts ∧
              (run console world words).Delivers console arguments.output
                ("\n".intercalate texts))) ∧
      ∀ settings texts, effectiveSettings world arguments = .ok settings →
        settings.generationComment.isTruthy = false → settings.Unformatted →
        List.Forall₂ (fun location text => generated world settings location = .ok text)
          arguments.sources texts →
        Task.Deliverable console world arguments.output ("\n".intercalate texts) →
          (run console world words).exitCode = 0 := by
  have hheader : ∀ arguments settings, settings.generationComment.isTruthy = false →
      headerIfWanted world arguments settings = .ok "" :=
    fun _ _ hcomment => if_neg (by simp [hcomment])
  refine ⟨fun h => ?_, fun path => CutShort.files, fun arguments hread => ⟨fun h => ?_, ?_⟩⟩
  · obtain ⟨houtput, hfiles⟩ := untouched_of_exitCode h
    exact ⟨houtput, fun hcut => hfiles.resolve_right fun ⟨path, hpath⟩ => hcut path hpath⟩
  · obtain ⟨text, middle, htext, hdelivers⟩ := delivers_of_exitCode hplain hread h
    obtain ⟨settings, texts, hsettings, htexts, rfl⟩ := compose_eq_ok.mp htext
    refine ⟨settings, hsettings, renders_of_runSources htexts, fun hcomment hunformatted => ?_⟩
    rw [hheader arguments settings hcomment] at htexts
    exact ⟨texts, generated_of_runSources hunformatted htexts, hdelivers⟩
  · intro settings texts hsettings hcomment hunformatted htexts hdeliverable
    -- Each source has its text alone, hence also in the run, and the rest can be delivered.
    obtain ⟨middle, hmiddle⟩ :=
      runSources_ok hunformatted htexts (start world arguments.verbose)
    have htext : compose world arguments (start world arguments.verbose) =
        .ok ("\n".intercalate texts) middle := by
      refine compose_eq_ok.mpr ⟨settings, texts, hsettings, ?_, rfl⟩
      rw [hheader arguments settings hcomment]
      exact hmiddle
    obtain ⟨final, hfinal⟩ := Task.deliver_ok hdeliverable middle
    have hwork : work console world arguments (start world arguments.verbose) = .ok () final :=
      Task.bind_eq_ok.mpr ⟨_, middle, htext, hfinal⟩
    rw [run_call hread, outcomeOf, hwork]
    rfl

theorem keepsPlain_standard : Console.standard.KeepsPlain :=
  fun _ => Text.plain_eq_self

/-- Settings that ask for no comment on the run, two descriptions, and one with a literal that UTF-8
cannot write. -/
def desk : FileTree :=
  .ofFiles [("quiet.json", "\x7b\"add_generation_comment\": false\x7d".toUTF8),
    ("pets.json", ("\x7b\"swagger\": \"2.0\", \"definitions\": " ++
      "\x7b\"Pet\": \x7b\"type\": \"string\"\x7d\x7d\x7d").toUTF8),
    ("tags.json", ("\x7b\"swagger\": \"2.0\", \"definitions\": " ++
      "\x7b\"Tag\": \x7b\"type\": \"number\"\x7d\x7d\x7d").toUTF8),
    ("odd.json", ("\x7b\"swagger\": \"2.0\", \"definitions\": " ++
      "\x7b\"Odd\": \x7b\"enum\": [\"\\ud800\"]\x7d\x7d\x7d").toUTF8)]

def deskWorld : World :=
  { directory := "/desk", entry := desk.entry, fetch := fun _ => .failed none, script := [] }

/-- What the settings of the desk ask for. -/
theorem desk_settings (arguments : Arguments) (h : arguments.config = some "quiet.json")
    (henums : arguments.enums = none) (hformat : arguments.format = false) :
    ∃ settings, effectiveSettings deskWorld arguments = .ok settings ∧
      settings.generationComment.isTruthy = false ∧ settings.Unformatted ∧
      generated deskWorld settings "pets.json" = .ok "export type Pet = string;\n" ∧
      generated deskWorld settings "tags.json" = .ok "export type Tag = number;\n" := by
  have hread : ∀ settings ∈ (readSettings deskWorld "quiet.json").toOption,
      settings.generationComment.isTruthy = false ∧ settings.Unformatted ∧
        (generated deskWorld settings "pets.json").toOption = some "export type Pet = string;\n" ∧
        (generated deskWorld settings "tags.json").toOption = some "export type Tag = number;\n" := by
    decide +kernel
  obtain ⟨settings, hsettings⟩ : ∃ settings, readSettings deskWorld "quiet.json" = .ok settings :=
    exists_ok_of_isSome (by decide +kernel)
  obtain ⟨hcomment, hunformatted, hpets, htags⟩ := hread settings (by rw [hsettings]; rfl)
  refine ⟨settings, ?_, hcomment, hunformatted, eq_ok_of_toOption hpets, eq_ok_of_toOption htags⟩
  simp [effectiveSettings, h, henums, hformat, hsettings]

/-- The arguments by which both descriptions are written to a file. -/
def bothArguments : Arguments :=
  { config := some "quiet.json", output := some "api.ts", sources := ["pets.json", "tags.json"] }

def bothWords : List String :=
  ["-c", "quiet.json", "-o", "api.ts", "pets.json", "tags.json"]

/-- The theorem for two descriptions, and for the same two with one that is missing. -/
theorem run_all_or_nothing_desk :
    Console.standard.KeepsPlain ∧
    Console.standard.read deskWorld bothWords = .call bothArguments ∧
    (run .standard deskWorld bothWords).exitCode = 0 ∧
    (run .standard deskWorld bothWords).files =
      [("api.ts", "export type Pet = string;\n\nexport type Tag = number;\n")] ∧
    (run .standard deskWorld (bothWords ++ ["lost.json"])).exitCode ≠ 0 ∧
    (run .standard deskWorld (bothWords ++ ["lost.json"])).files = [] := by
  have hread : Console.standard.read deskWorld bothWords = .call bothArguments := by decide +kernel
  obtain ⟨settings, hsettings, hcomment, hunformatted, hpets, htags⟩ :=
    desk_settings bothArguments rfl rfl rfl
  obtain ⟨_, _, hcalls⟩ := run_all_or_nothing .standard keepsPlain_standard deskWorld bothWords
  obtain ⟨hends, hstarts⟩ := hcalls bothArguments hread
  have hcode : (run .standard deskWorld bothWords).exitCode = 0 :=
    hstarts settings _ hsettings hcomment hunformatted (.cons hpets (.cons htags .nil))
      ⟨by decide +kernel, by decide +kernel⟩
  obtain ⟨same, hsame, _, hdelivered⟩ := hends hcode
  cases Except.ok.inj (hsettings.symm.trans hsame)
  obtain ⟨texts, htexts, hfiles, _⟩ := hdelivered hcomment hunformatted
  obtain ⟨_, _, hfirst, hrest, rfl⟩ := List.forall₂_cons_left_iff.mp htexts
  obtain ⟨_, _, hsecond, ⟨⟩, rfl⟩ := List.forall₂_cons_left_iff.mp hrest
  cases Except.ok.inj (hpets.symm.trans hfirst)
  cases Except.ok.inj (htags.symm.trans hsecond)
  have hlost : (run .standard deskWorld (bothWords ++ ["lost.json"])).exitCode ≠ 0 := by
    decide +kernel
  refine ⟨keepsPlain_standard, hread, hcode, hfiles, hlost, ?_⟩
  refine ((run_all_or_nothing .standard keepsPlain_standard deskWorld _).1 hlost).2 ?_
  rintro path ⟨arguments, text, middle, hcall, _, htext, _⟩
  have hstopped : ∀ arguments ∈ (match Console.standard.read deskWorld
      (bothWords ++ ["lost.json"]) with | .call arguments => some arguments | _ => none),
      (match compose deskWorld arguments (start deskWorld arguments.verbose) with
        | .ok .. => false | .error .. => true) = true := by
    decide +kernel
  rw [hcall] at hstopped
  have hnone := hstopped arguments rfl
  rw [htext] at hnone
  cases hnone

/-- A run whose text cannot be written leaves an output file behind, and it empties one that was
there. -/
theorem not_all_or_nothing :
    (run .standard deskWorld ["-o", "api.ts", "odd.json"]).exitCode = 1 ∧
    (run .standard deskWorld ["-o", "api.ts", "odd.json"]).files = [("api.ts", "")] ∧
    (run .standard deskWorld ["-o", "pets.json", "odd.json"]).exitCode = 1 ∧
    (run .standard deskWorld ["-o", "pets.json", "odd.json"]).files = [("pets.json", "")] := by
  have hends : ∀ output ∈ ["api.ts", "pets.json"],
      (run .standard deskWorld ["-o", output, "odd.json"]).exitCode = 1 ∧
        (run .standard deskWorld ["-o", output, "odd.json"]).files = [(output, "")] := by
    decide +kernel
  obtain ⟨hcode, hfiles⟩ := hends "api.ts" (by decide)
  obtain ⟨hcodeThere, hfilesThere⟩ := hends "pets.json" (by decide)
  exact ⟨hcode, hfiles, hcodeThere, hfilesThere⟩

end CommandLine

end ApiTypes
