import ApiTypes.CommandLine.Task

/-!
# What work does to its surroundings

Most of the work of a run is quiet: it reports at most, and however it ends, nothing was printed and
no file was touched. Only the delivery of a text is not, and its results are written out here. A file is
emptied before the text is written to it, so a text that cannot be written leaves it empty.
-/

namespace ApiTypes.CommandLine.Task

variable {α β : Type}

/-- The surroundings after a piece of work, whether it came to its end or was stopped. -/
def after (task : Task α) (surroundings : Surroundings) : Surroundings :=
  match task surroundings with
  | .ok _ final => final
  | .error _ final => final

structure Untouched (before after : Surroundings) : Prop where
  output : after.output = before.output
  files : after.files = before.files

theorem Untouched.trans {first second third : Surroundings} (h : Untouched first second)
    (hrest : Untouched second third) : Untouched first third :=
  ⟨hrest.output.trans h.output, hrest.files.trans h.files⟩

def Quiet (task : Task α) : Prop :=
  ∀ surroundings, Untouched surroundings (task.after surroundings)

/-! ## Work in succession -/

/-- Work in succession: the second piece begins where the first left the surroundings. -/
theorem bind_apply (task : Task α) (next : α → Task β) (start : Surroundings) :
    (task >>= next) start =
      match task start with
      | .ok a middle => next a middle
      | .error stop final => .error stop final := by
  change EStateM.bind task next start = _
  rw [EStateM.bind]
  cases task start <;> rfl

/-- Work in succession comes to its end exactly if both pieces do. -/
theorem bind_eq_ok {task : Task α} {next : α → Task β} {start final : Surroundings} {b : β} :
    (task >>= next) start = .ok b final ↔
      ∃ a middle, task start = .ok a middle ∧ next a middle = .ok b final := by
  rw [bind_apply]
  cases task start with
  | ok a middle =>
    constructor
    · exact fun h => ⟨a, middle, rfl, h⟩
    · rintro ⟨_, _, ⟨⟩, h⟩
      exact h
  | error stop middle => simp

theorem pure_apply (a : α) (start : Surroundings) : (pure a : Task α) start = .ok a start := rfl

theorem throw_apply (stop : Stop) (start : Surroundings) :
    (throw stop : Task α) start = .error stop start := rfl

theorem quiet_pure (a : α) : Quiet (pure a : Task α) :=
  fun _ => ⟨rfl, rfl⟩

theorem quiet_throw (stop : Stop) : Quiet (throw stop : Task α) :=
  fun _ => ⟨rfl, rfl⟩

theorem quiet_modify {change : Surroundings → Surroundings}
    (h : ∀ surroundings, Untouched surroundings (change surroundings)) :
    Quiet (modify change : Task PUnit) :=
  h

/-- Work in succession is quiet if each piece of it is. -/
theorem Quiet.bind {task : Task α} {next : α → Task β} (h : Quiet task) (hnext : ∀ a, Quiet (next a)) :
    Quiet (task >>= next) := by
  intro start
  have hfirst := h start
  rw [after] at hfirst
  rw [after, bind_apply]
  cases hresult : task start with
  | ok a middle =>
    rw [hresult] at hfirst
    exact hfirst.trans (hnext a middle)
  | error stop final =>
    rw [hresult] at hfirst
    exact hfirst

/-- Quiet work that came to its end has touched nothing. -/
theorem Quiet.of_ok {task : Task α} {start final : Surroundings} {a : α} (h : Quiet task)
    (hresult : task start = .ok a final) : Untouched start final := by
  have huntouched := h start
  rwa [after, hresult] at huntouched

theorem Quiet.of_error {task : Task α} {start final : Surroundings} {stop : Stop} (h : Quiet task)
    (hresult : task start = .error stop final) : Untouched start final := by
  have huntouched := h start
  rwa [after, hresult] at huntouched

theorem quiet_report (lines : List LogLine) : Quiet (report lines) :=
  quiet_modify fun _ => ⟨rfl, rfl⟩

theorem quiet_attempt (result : Except Error α) : Quiet (attempt result) := by
  cases result with
  | ok value => exact quiet_pure value
  | error error => exact quiet_throw _

theorem quiet_guarded (result : Except Crash α) : Quiet (guarded result) := by
  cases result with
  | ok value => exact quiet_pure value
  | error crash => exact quiet_throw _

/-- A result that is there goes on without touching the surroundings. -/
theorem attempt_eq_ok {result : Except Error α} {start final : Surroundings} {a : α} :
    attempt result start = .ok a final ↔ result = .ok a ∧ start = final := by
  cases result with
  | ok value => simp [attempt, pure_apply]
  | error error => simp [attempt, throw_apply]

theorem guarded_eq_ok {result : Except Crash α} {start final : Surroundings} {a : α} :
    guarded result start = .ok a final ↔ result = .ok a ∧ start = final := by
  cases result with
  | ok value => simp [guarded, pure_apply]
  | error crash => simp [guarded, throw_apply]

/-! ## Delivery -/

variable {console : Console} {world : World} {start final : Surroundings} {path text : String}

theorem files_put (h : start.files = []) : (start.put path text).files = [(path, text)] := by
  rw [Surroundings.put, h]
  rfl

theorem files_put_put (h : start.files = []) (other : String) :
    ((start.put path other).put path text).files = [(path, text)] := by
  simp [Surroundings.put, h]

/-- Printing adds to the output if the encoding spells the text, and else stops before it adds
anything. -/
theorem print_eq (console : Console) (world : World) (text : String) (start : Surroundings) :
    print console world text start =
      if world.encoding.spells (console.plain text) then
        .ok () { start with output := start.output ++ console.plain text }
      else .error (.crashed .outputEncoding) start := by
  rw [print, bind_apply, spell]
  cases world.encoding.spells (console.plain text) <;> rfl

theorem openFile_eq (world : World) (path : String) (start : Surroundings) :
    openFile world path start =
      match writeError? world path with
      | some cause => .error (.crashed (.file cause)) start
      | none => .ok () (start.put path "") := by
  rw [openFile, bind_apply]
  cases writeError? world path <;> rfl

theorem write_eq (world : World) (path text : String) (start : Surroundings) :
    write world path text start =
      if world.encoding.spells text then .ok () (start.put path text)
      else .error (.crashed .outputEncoding) start := by
  rw [write, bind_apply, spell]
  cases world.encoding.spells text <;> rfl

/-- What a delivery to a file comes to. -/
theorem deliver_file_eq (console : Console) (world : World) (path text : String)
    (start : Surroundings) :
    deliver console world (some path) text start =
      match writeError? world path with
      | some cause => .error (.crashed (.file cause)) start
      | none =>
        if world.encoding.spells text then .ok () ((start.put path "").put path text)
        else .error (.crashed .outputEncoding) (start.put path "") := by
  rw [deliver, bind_apply, openFile_eq]
  cases writeError? world path with
  | some cause => rfl
  | none => exact write_eq world path text _

theorem print_error {stop : Stop} (h : print console world text start = .error stop final) :
    start = final := by
  rw [print_eq] at h
  split at h
  · cases h
  · cases h
    rfl

/-- A delivery that is stopped has printed nothing, and it has touched no file unless that could be
opened, but the text could not be written to it. -/
theorem deliver_error {output : Option String} {stop : Stop} (huntouched : Untouched {} start)
    (h : deliver console world output text start = .error stop final) :
    final.output = "" ∧ (final.files = [] ∨ ∃ path, output = some path ∧
      writeError? world path = none ∧ world.encoding.spells text = false) := by
  cases output with
  | none =>
    rw [← print_error h]
    exact ⟨huntouched.output, .inl huntouched.files⟩
  | some path =>
    rw [deliver_file_eq] at h
    -- A file that cannot be opened is left alone; one that is opened is emptied before the text is
    -- encoded.
    cases hopen : writeError? world path with
    | some cause =>
      rw [hopen] at h
      cases h
      exact ⟨huntouched.output, .inl huntouched.files⟩
    | none =>
      rw [hopen] at h
      dsimp only at h
      split at h
      · cases h
      · rename_i hspells
        cases h
        exact ⟨huntouched.output, .inr ⟨path, rfl, hopen, Bool.eq_false_iff.mpr hspells⟩⟩

/-- A text that cannot be written leaves the file that was opened for it, and leaves it empty. -/
theorem deliver_cut (huntouched : Untouched {} start) (hopen : writeError? world path = none)
    (hspells : world.encoding.spells text = false) :
    ∃ final, deliver console world (some path) text start =
      .error (.crashed .outputEncoding) final ∧ final.files = [(path, "")] := by
  refine ⟨start.put path "", ?_, files_put huntouched.files⟩
  rw [deliver_file_eq, hopen]
  dsimp only
  rw [hspells, if_neg Bool.false_ne_true]

/-- What has been delivered: the text is in the output file, if there is one, and else it is what is
printed, in the form in which the console prints. -/
def Delivered (console : Console) (output : Option String) (text : String) (final : Surroundings) :
    Prop :=
  match output with
  | none => final.files = [] ∧ final.output = console.plain text
  | some path => final.files = [(path, text)] ∧ final.output = ""

/-- A delivery that came to its end has delivered the text. -/
theorem delivered_of_ok {output : Option String} (huntouched : Untouched {} start)
    (h : deliver console world output text start = .ok () final) :
    Delivered console output text final := by
  cases output with
  | none =>
    rw [deliver, print_eq] at h
    split at h
    · cases h
      refine ⟨huntouched.files, ?_⟩
      rw [huntouched.output, String.empty_append]
    · cases h
  | some path =>
    rw [deliver_file_eq] at h
    split at h
    · cases h
    · split at h
      · cases h
        exact ⟨files_put_put huntouched.files "", huntouched.output⟩
      · cases h

/-- The output file can be opened, or there is none, and its encoding can write the text. -/
def Deliverable (console : Console) (world : World) (output : Option String) (text : String) : Prop :=
  match output with
  | none => world.encoding.spells (console.plain text) = true
  | some path => writeError? world path = none ∧ world.encoding.spells text = true

/-- A text that can be delivered is. -/
theorem deliver_ok {output : Option String} (h : Deliverable console world output text)
    (start : Surroundings) : ∃ final, deliver console world output text start = .ok () final := by
  cases output with
  | none =>
    have hspells : world.encoding.spells (console.plain text) = true := h
    rw [deliver, print_eq, if_pos hspells]
    exact ⟨_, rfl⟩
  | some path =>
    obtain ⟨hopen, hspells⟩ := h
    rw [deliver_file_eq, hopen]
    dsimp only
    rw [if_pos hspells]
    exact ⟨_, rfl⟩

end ApiTypes.CommandLine.Task
