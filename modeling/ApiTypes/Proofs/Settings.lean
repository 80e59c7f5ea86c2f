import ApiTypes.Proofs.Outcome
import ApiTypes.Settings
import Mathlib.Data.List.Nodup

/-!
# Settings are overlaid

The members of a JSON object are set one after the other over the default settings. As no name occurs
twice, each setting ends with the value of its name, or stays as it is if there is none. A few names
are no settings and yet reach behind them. Without these, unknown names change nothing, and settings
are read back from their JSON form.
-/

namespace ApiTypes

namespace Members

variable {members rest : Members} {name other : String} {value : Json}

/-! ## Members -/

def names (members : Members) : List String :=
  members.map (·.1)

/-- The members of a table, each with the value that another table has for it, if any. -/
def overlaid (table given : Members) : Members :=
  table.map fun (name, value) => (name, (given.lookup name).getD value)

theorem lookup_eq_none (h : name ∉ members.names) : members.lookup name = none := by
  rw [List.lookup_eq_none_iff]
  intro entry hentry
  refine bne_iff_ne.mpr ?_
  rintro rfl
  exact h (List.mem_map_of_mem hentry)

theorem has_eq_true : Members.has members name = true ↔ name ∈ members.names := by
  unfold Members.has
  rw [List.lookup_isSome_iff]
  simp [names]

/-- A name that does not occur again has its value from the first member. -/
theorem lookup_cons_or (h : name ∉ rest.names) (value : Json) (other : String) :
    List.lookup other ((name, value) :: rest) =
      (rest.lookup other).or (List.lookup other [(name, value)]) := by
  rw [List.lookup_cons, List.lookup_cons]
  by_cases hsame : other = name
  · rw [hsame, lookup_eq_none h, beq_self_eq_true]
    rfl
  · rw [beq_eq_false_iff_ne.mpr hsame, List.lookup_nil, Option.or_none]

theorem names_append_cons (before after : Members) (name : String) (value : Json) :
    names (before ++ (name, value) :: after) = before.names ++ name :: after.names := by
  rw [names, List.map_append]
  rfl

theorem mem_names_of_lookup {value : Json} (h : members.lookup name = some value) :
    name ∈ members.names := by
  by_contra hnone
  rw [lookup_eq_none hnone] at h
  cases h

end Members

namespace FormatterOptions

/-- The options with the values that members have for them. -/
def overlaid (start : FormatterOptions) (members : Members) : FormatterOptions where
  enabled := (members.lookup "enabled").getD start.enabled
  printWidth := (members.lookup "print_width").getD start.printWidth
  command := (members.lookup "command").getD start.command

/-- Members that are options, each of them at most once. -/
structure Options (members : Members) : Prop where
  distinct : members.names.Nodup
  known : ∀ name ∈ members.names, name ∈ ["enabled", "print_width", "command"]

theorem overlaid_cons (start : FormatterOptions) {name : String} (value : Json) {rest : Members}
    (h : name ∉ rest.names) :
    start.overlaid ((name, value) :: rest) = (start.overlaid [(name, value)]).overlaid rest := by
  simp only [overlaid, Members.lookup_cons_or h, Option.getD_or]

theorem set_eq_overlaid (start : FormatterOptions) {name : String} (value : Json)
    (h : name ∈ ["enabled", "print_width", "command"]) :
    start.set name value = .ok (start.overlaid [(name, value)]) := by
  simp only [List.mem_cons, List.not_mem_nil, or_false] at h
  rcases h with rfl | rfl | rfl <;> rfl

/-- Setting the keys of a formatter one by one lays them over its options. -/
theorem foldlM_set (start : FormatterOptions) {members : Members} (h : Options members) :
    members.foldlM (fun options (name, value) => options.set name value) start =
      .ok (start.overlaid members) := by
  induction members generalizing start with
  | nil => rfl
  | cons entry rest ih =>
    obtain ⟨name, value⟩ := entry
    obtain ⟨hnew, hdistinct⟩ : name ∉ Members.names rest ∧ (Members.names rest).Nodup :=
      List.nodup_cons.mp h.distinct
    have hknown : name ∈ ["enabled", "print_width", "command"] := h.known name List.mem_cons_self
    have hrest : Options rest := ⟨hdistinct, fun other hmem => h.known other (.tail name hmem)⟩
    rw [List.foldlM_cons]
    dsimp only
    rw [set_eq_overlaid start value hknown, ok_bind, ih _ hrest, ← overlaid_cons start value hnew]

theorem ofMembers_eq {members : Members} (h : Options members) :
    ofMembers members = .ok (({} : FormatterOptions).overlaid members) :=
  foldlM_set {} h

/-- A command stays a list. -/
theorem command_overlaid {members : Members}
    (h : ∀ command ∈ members.lookup "command", ∃ items, command = .array items) :
    ∃ items, (({} : FormatterOptions).overlaid members).command = .array items := by
  cases hfound : members.lookup "command" with
  | none => exact ⟨_, congrArg (·.getD ({} : FormatterOptions).command) hfound⟩
  | some command =>
    obtain ⟨items, rfl⟩ := h command hfound
    exact ⟨items, congrArg (·.getD ({} : FormatterOptions).command) hfound⟩

end FormatterOptions

namespace Settings

/-! ## Reading -/

/-- The formatting setting that a value gives, if there is one. -/
def formatterFrom (start : FormatterSetting) : Option Json → FormatterSetting
  | none => start
  | some (.object members) => .options (({} : FormatterOptions).overlaid members)
  | some value => .other value

def overlaid (start : Settings) (members : Members) : Settings where
  emitEnums := (members.lookup "emit_enums").getD start.emitEnums
  generationComment := (members.lookup "add_generation_comment").getD start.generationComment
  formatter := formatterFrom start.formatter (members.lookup "formatter")
  exportable := !Members.has members "to_dict" && start.exportable

/-- Members of which none has a name twice, with a table of options for the formatting step, if there
is something for it. -/
structure WellTyped (members : Members) : Prop where
  distinct : members.names.Nodup
  formatter : ∀ value ∈ members.lookup "formatter", ∃ options, value = .object options ∧
    FormatterOptions.Options options ∧
      ∀ command ∈ options.lookup "command", ∃ items, command = .array items

theorem formatterFrom_or (start : FormatterSetting) (first second : Option Json) :
    formatterFrom start (first.or second) = formatterFrom (formatterFrom start second) first := by
  cases first with
  | none => rfl
  | some value => cases value <;> rfl

theorem overlaid_cons (start : Settings) {name : String} (value : Json) {rest : Members}
    (h : name ∉ rest.names) :
    start.overlaid ((name, value) :: rest) = (start.overlaid [(name, value)]).overlaid rest := by
  simp only [overlaid, Members.has, Members.lookup_cons_or h, Option.getD_or, formatterFrom_or,
    Option.isSome_or, Bool.not_or, Bool.and_assoc]

/-- The names that stand for more than one setting, and cannot be set to every value. -/
def reserved : List String := ["__dict__", "__class__", "__weakref__"]

/-- Setting a key that is not reserved lays it over the settings. -/
theorem set_eq_overlaid (start : Settings) {name : String} {value : Json} (hname : name ∉ reserved)
    (hformatter : name = "formatter" →
      ∃ options, value = .object options ∧ FormatterOptions.Options options) :
    start.set name value = .ok (start.overlaid [(name, value)]) := by
  simp only [reserved, List.mem_cons, List.not_mem_nil, or_false, not_or] at hname
  obtain ⟨hdict, hclass, hweak⟩ := hname
  unfold set
  -- Three names are settings, one is that of the export, and any other is set without effect.
  split_ifs with henums hcomment hoption hexport
  · subst henums
    rfl
  · subst hcomment
    rfl
  · obtain ⟨options, rfl, hoptions⟩ := hformatter hoption
    subst hoption
    rw [setFormatter, FormatterOptions.ofMembers_eq hoptions]
    rfl
  · subst hexport
    rfl
  · have hother : ∀ other, other ≠ name → List.lookup other [(name, value)] = none := by
      intro other hne
      rw [List.lookup_cons, beq_eq_false_iff_ne.mpr hne, List.lookup_nil]
    rw [overlaid, Members.has, hother _ (Ne.symm henums), hother _ (Ne.symm hcomment),
      hother _ (Ne.symm hoption), hother _ (Ne.symm hexport)]
    rfl

theorem WellTyped.head {name : String} {value : Json} {rest : Members}
    (h : WellTyped ((name, value) :: rest)) (hname : name = "formatter") :
    ∃ options, value = .object options ∧ FormatterOptions.Options options := by
  obtain ⟨options, hvalue, hoptions, _⟩ := h.formatter value (by rw [hname, List.lookup_cons_self]; rfl)
  exact ⟨options, hvalue, hoptions⟩

theorem WellTyped.tail {name : String} {value : Json} {rest : Members}
    (h : WellTyped ((name, value) :: rest)) : WellTyped rest := by
  obtain ⟨hnew, hdistinct⟩ : name ∉ Members.names rest ∧ (Members.names rest).Nodup :=
    List.nodup_cons.mp h.distinct
  refine ⟨hdistinct, fun found hfound => h.formatter found ?_⟩
  rw [Members.lookup_cons_or hnew, Option.mem_def.mp hfound]
  rfl

theorem WellTyped.append {before after : Members} (h : WellTyped (before ++ after)) :
    WellTyped before ∧ WellTyped after := by
  constructor
  · have hdistinct : (before.names ++ after.names).Nodup := by
      rw [Members.names, Members.names, ← List.map_append]
      exact h.distinct
    refine ⟨hdistinct.of_append_left, fun value hvalue => h.formatter value ?_⟩
    rw [List.lookup_append, Option.mem_def.mp hvalue]
    rfl
  · induction before with
    | nil => exact h
    | cons entry before ih => exact ih h.tail

/-- Without reserved names, the members are laid over the settings. -/
theorem foldlM_set (start : Settings) {members : Members} (h : WellTyped members)
    (hreserved : ∀ name ∈ reserved, name ∉ members.names) :
    members.foldlM (fun settings (name, value) => settings.set name value) start =
      .ok (start.overlaid members) := by
  induction members generalizing start with
  | nil => rfl
  | cons entry rest ih =>
    obtain ⟨name, value⟩ := entry
    obtain ⟨hnew, _⟩ : name ∉ Members.names rest ∧ (Members.names rest).Nodup :=
      List.nodup_cons.mp h.distinct
    have hname : name ∉ reserved := fun hmem => hreserved name hmem List.mem_cons_self
    have hrest := ih (start.overlaid [(name, value)]) h.tail
      fun other hother hmem => hreserved other hother (List.mem_cons_of_mem name hmem)
    rw [List.foldlM_cons]
    dsimp only
    rw [set_eq_overlaid start hname h.head, ok_bind, hrest, ← overlaid_cons start value hnew]

/-- An object without a reserved key gives the settings with its keys laid over. -/
theorem ofJson_eq_overlaid {members : Members} (h : WellTyped members)
    (hreserved : ∀ name ∈ reserved, name ∉ members.names) :
    ofJson (.object members) = .ok (({} : Settings).overlaid members) :=
  foldlM_set {} h hreserved

/-- Where a table replaces the settings, only what is behind it is laid over the table. -/
theorem ofJson_replaced {before after table : Members} (hbefore : WellTyped before)
    (hafter : WellTyped after) (hreserved : ∀ name ∈ reserved, name ∉ before.names ++ after.names) :
    ofJson (.object (before ++ ("__dict__", .object table) :: after)) =
      .ok ((replaced table).overlaid after) := by
  have hfirst : ∀ name ∈ reserved, name ∉ before.names :=
    fun name hname hmem => hreserved name hname (List.mem_append_left _ hmem)
  have hsecond : ∀ name ∈ reserved, name ∉ after.names :=
    fun name hname hmem => hreserved name hname (List.mem_append_right _ hmem)
  rw [ofJson, Json.members, ok_bind, List.foldlM_append, foldlM_set {} hbefore hfirst, ok_bind,
    List.foldlM_cons]
  exact foldlM_set (replaced table) hafter hsecond

/-- No settings are read where one of the members cannot be set. -/
theorem ofJson_ne_ok_of_set {members : Members} {name : String} {value : Json}
    (hmem : (name, value) ∈ members) (h : ∀ start next, set start name value ≠ .ok next)
    (settings : Settings) : ofJson (.object members) ≠ .ok settings :=
  foldlM_ne_ok hmem (fun start next => h start next) {} settings

/-- Two of the reserved names cannot be set at all. -/
theorem ofJson_ne_ok {members : Members} {name : String} (h : name ∈ members.names)
    (hname : name = "__class__" ∨ name = "__weakref__") (settings : Settings) :
    ofJson (.object members) ≠ .ok settings := by
  obtain ⟨⟨found, value⟩, hmem, rfl⟩ := List.mem_map.mp h
  refine ofJson_ne_ok_of_set hmem (fun start next hset => ?_) settings
  rcases hname with rfl | rfl <;> cases hset

/-! ## Writing -/

/-- The JSON form of the default settings but for those of the formatting step. -/
def defaults : Members :=
  [("emit_enums", .bool false), ("add_generation_comment", .bool true)]

def formatterDefaults : Members :=
  [("enabled", .bool false), ("print_width", .int 100),
    ("command", .array [.string "npx", .string "--no-install", .string "prettier"])]

/-- The default settings in their JSON form, overlaid by members, and the options of the formatting
step by theirs. -/
def overlay (members : Members) : Json :=
  let options :=
    match members.lookup "formatter" with
    | some (.object options) => options
    | _ => []
  .object (defaults.overlaid members ++ [("formatter", .object (formatterDefaults.overlaid options))])

example : ({} : Settings).toJson = .ok (overlay []) :=
  rfl

/-- Exporting those settings gives the overlay, unless the export itself was overwritten. -/
theorem toJson_overlaid {members : Members} (h : WellTyped members) :
    (({} : Settings).overlaid members).toJson =
      if Members.has members "to_dict" then .error .call else .ok (overlay members) := by
  have hexportable : (({} : Settings).overlaid members).exportable =
      !Members.has members "to_dict" := Bool.and_true _
  unfold toJson
  rw [hexportable, Bool.not_not]
  split
  · rfl
  · -- The formatter is the only setting with parts, of which the command is written as a list.
    unfold formatterOptions overlay overlaid
    dsimp only
    cases hlookup : members.lookup "formatter" with
    | none => rfl
    | some value =>
      obtain ⟨options, rfl, _, hcommand⟩ := h.formatter value hlookup
      obtain ⟨items, hitems⟩ := FormatterOptions.command_overlaid hcommand
      have helements : (({} : FormatterOptions).overlaid options).command.elements = .ok items := by
        rw [hitems]
        rfl
      rw [formatterFrom]
      dsimp only
      rw [ok_bind, helements, ok_bind, ← hitems]
      rfl

/-- The export of settings whose formatter is whole. -/
theorem toJson_of_options {settings : Settings} {options : FormatterOptions} {items : List Json}
    (hformatter : settings.formatter = .options options) (hcommand : options.command = .array items) :
    settings.toJson =
      if settings.exportable then
        .ok (.object [("emit_enums", settings.emitEnums),
          ("add_generation_comment", settings.generationComment),
          ("formatter", .object [("enabled", options.enabled), ("print_width", options.printWidth),
            ("command", options.command)])])
      else .error .call := by
  obtain ⟨emitEnums, generationComment, formatter, exportable⟩ := settings
  obtain ⟨enabled, printWidth, command⟩ := options
  subst hformatter hcommand
  cases exportable <;> rfl

/-- Settings whose formatter was replaced cannot be exported. -/
theorem toJson_ne_ok {settings : Settings} (h : ∀ options, settings.formatter ≠ .options options)
    (value : Json) : settings.toJson ≠ .ok value := by
  obtain ⟨emitEnums, generationComment, formatter, exportable⟩ := settings
  cases exportable with
  | false => exact nofun
  | true =>
    cases formatter with
    | options options => exact absurd rfl (h options)
    | other _ => exact nofun
    | absent => exact nofun

/-! ## Replacing -/

theorem formatter_replaced (table : Members) (options : FormatterOptions) :
    (replaced table).formatter ≠ .options options := by
  unfold replaced
  cases table.lookup "formatter" <;> exact nofun

/-- What stands behind a table that replaces all settings gives back what the table took away: the
settings can be written, and an option that is not set again has the value in the table that it had
before. -/
structure Restores (before table after : Members) : Prop where
  exportable : "to_dict" ∉ table.names ++ after.names
  formatter : "formatter" ∈ after.names
  emitEnums : "emit_enums" ∉ after.names →
    (table.lookup "emit_enums").getD (.bool false) = (before.lookup "emit_enums").getD (.bool false)
  generationComment : "add_generation_comment" ∉ after.names →
    (table.lookup "add_generation_comment").getD (.bool true) =
      (before.lookup "add_generation_comment").getD (.bool true)

/-- An option is as it would be without the table, if it is set again or the table has its value. -/
theorem getD_lookup_iff (before table : Members) {after : Members} {name : String}
    (hname : name ≠ "__dict__") (hnew : name ∈ after.names → name ∉ before.names) (default : Json) :
    (after.lookup name).getD ((table.lookup name).getD default) =
        ((before ++ ("__dict__", .object table) :: after).lookup name).getD default ↔
      (name ∉ after.names → (table.lookup name).getD default = (before.lookup name).getD default) := by
  rw [List.lookup_append, List.lookup_cons, beq_eq_false_iff_ne.mpr hname]
  cases hfound : after.lookup name with
  | none =>
    have hmissing : name ∉ after.names := by
      rw [← Members.has_eq_true, Members.has, hfound]
      exact Bool.false_ne_true
    simp [hmissing]
  | some value =>
    have hmem := Members.mem_names_of_lookup hfound
    rw [Members.lookup_eq_none (hnew hmem)]
    simp [hmem]

theorem exportable_overlaid_replaced {table after : Members} :
    ((replaced table).overlaid after).exportable = true ↔ "to_dict" ∉ table.names ++ after.names := by
  rw [overlaid, replaced, Bool.and_eq_true, Bool.not_eq_true', Bool.not_eq_true',
    ← Bool.not_eq_true, ← Bool.not_eq_true, Members.has_eq_true, Members.has_eq_true,
    List.mem_append, not_or, and_comm]

/-- Members behind a table that replaces all settings are laid over the default settings, if and only if
they give back what the table took away. -/
theorem toJson_restored {before table after : Members} (hafter : WellTyped after)
    (hnew : ∀ name ∈ after.names, name ∉ before.names) :
    ((replaced table).overlaid after).toJson =
        .ok (overlay (before ++ ("__dict__", .object table) :: after)) ↔
      Restores before table after := by
  have henums : ((replaced table).overlaid after).emitEnums = _ ↔ _ :=
    getD_lookup_iff before table (by decide) (hnew "emit_enums") (.bool false)
  have hcomment : ((replaced table).overlaid after).generationComment = _ ↔ _ :=
    getD_lookup_iff before table (by decide) (hnew "add_generation_comment") (.bool true)
  cases hlookup : after.lookup "formatter" with
  | none =>
    -- The formatting setting is the one of the table, and that cannot be written.
    have hother : ∀ options, ((replaced table).overlaid after).formatter ≠ .options options := by
      rw [overlaid, hlookup]
      exact formatter_replaced table
    constructor
    · exact fun hwrite => absurd hwrite (toJson_ne_ok hother _)
    · intro hrestores
      have hfound := Members.has_eq_true.mpr hrestores.formatter
      rw [Members.has, hlookup] at hfound
      cases hfound
  | some value =>
    have hformatter := Members.mem_names_of_lookup hlookup
    obtain ⟨options, rfl, _, hcommand⟩ := hafter.formatter value hlookup
    obtain ⟨items, hitems⟩ := FormatterOptions.command_overlaid hcommand
    have hoptions : ((replaced table).overlaid after).formatter =
        .options (({} : FormatterOptions).overlaid options) := by
      rw [overlaid, hlookup]
      rfl
    have hfound : (before ++ ("__dict__", .object table) :: after).lookup "formatter" =
        some (.object options) := by
      rw [List.lookup_append, Members.lookup_eq_none (hnew _ hformatter)]
      exact hlookup
    rw [toJson_of_options hoptions hitems, overlay, hfound]
    constructor
    · intro hwrite
      split at hwrite
      · rename_i hwritable
        obtain ⟨hfirst, hrest⟩ := List.cons.inj (Json.object.inj (Except.ok.inj hwrite))
        obtain ⟨hsecond, _⟩ := List.cons.inj hrest
        exact ⟨exportable_overlaid_replaced.mp hwritable, hformatter, henums.mp (Prod.mk.inj hfirst).2,
          hcomment.mp (Prod.mk.inj hsecond).2⟩
      · cases hwrite
    · intro hrestores
      rw [if_pos (exportable_overlaid_replaced.mpr hrestores.exportable),
        henums.mpr hrestores.emitEnums, hcomment.mpr hrestores.generationComment]
      rfl

/-- Members are laid over the default settings, if and only if none of them takes the JSON form of the
settings away or cannot be set. -/
theorem overlay_iff {members : Members} (h : WellTyped members)
    (hdict : "__dict__" ∉ members.names) :
    (ofJson (.object members) >>= toJson) = .ok (overlay members) ↔
      "to_dict" ∉ members.names ∧ "__class__" ∉ members.names ∧ "__weakref__" ∉ members.names := by
  constructor
  · intro hexport
    obtain ⟨settings, hread, hwrite⟩ := bind_eq_ok.mp hexport
    have hclass : "__class__" ∉ members.names := fun hmem => ofJson_ne_ok hmem (.inl rfl) _ hread
    have hweak : "__weakref__" ∉ members.names := fun hmem => ofJson_ne_ok hmem (.inr rfl) _ hread
    -- The export is called as a method, which the member has put out of reach.
    refine ⟨fun hmem => ?_, hclass, hweak⟩
    have hreserved : ∀ name ∈ reserved, name ∉ members.names := by
      simp [reserved, hdict, hclass, hweak]
    rw [ofJson_eq_overlaid h hreserved] at hread
    cases hread
    rw [toJson_overlaid h, if_pos (Members.has_eq_true.mpr hmem)] at hwrite
    cases hwrite
  · rintro ⟨hexport, hclass, hweak⟩
    have hreserved : ∀ name ∈ reserved, name ∉ members.names := by
      simp [reserved, hdict, hclass, hweak]
    rw [ofJson_eq_overlaid h hreserved, ok_bind, toJson_overlaid h,
      if_neg (Members.has_eq_true.not.mpr hexport)]

/-- Settings are read back from their JSON form. -/
theorem ofJson_toJson {settings : Settings} {options : FormatterOptions} {items : List Json}
    (hexportable : settings.exportable = true) (hformatter : settings.formatter = .options options)
    (hcommand : options.command = .array items) :
    (settings.toJson >>= ofJson) = .ok settings := by
  obtain ⟨emitEnums, generationComment, formatter, exportable⟩ := settings
  obtain ⟨enabled, printWidth, command⟩ := options
  subst hexportable hformatter hcommand
  rfl

/-- Only the values of the three names count. -/
theorem overlaid_congr {members other : Members} (start : Settings)
    (h : ∀ name ∈ ["emit_enums", "add_generation_comment", "formatter"],
      members.lookup name = other.lookup name)
    (hmembers : "to_dict" ∉ members.names) (hother : "to_dict" ∉ other.names) :
    start.overlaid members = start.overlaid other := by
  have hfirst : Members.has members "to_dict" = false := by
    rwa [← Bool.not_eq_true, Members.has_eq_true]
  have hsecond : Members.has other "to_dict" = false := by
    rwa [← Bool.not_eq_true, Members.has_eq_true]
  rw [overlaid, overlaid, hfirst, hsecond, h "emit_enums" (by simp),
    h "add_generation_comment" (by simp), h "formatter" (by simp)]

/-- The same where one of the members is a table that replaces all settings. -/
theorem overlay_iff_restores {before after : Members} {value : Json}
    (h : WellTyped (before ++ ("__dict__", value) :: after))
    (hclass : "__class__" ∉ Members.names (before ++ ("__dict__", value) :: after))
    (hweak : "__weakref__" ∉ Members.names (before ++ ("__dict__", value) :: after)) :
    (ofJson (.object (before ++ ("__dict__", value) :: after)) >>= toJson) =
        .ok (overlay (before ++ ("__dict__", value) :: after)) ↔
      ∃ table, value = .object table ∧ Restores before table after := by
  by_cases htable : ∃ table, value = .object table
  · obtain ⟨table, rfl⟩ := htable
    obtain ⟨hbefore, hrest⟩ := h.append
    have hnames := h.distinct
    rw [Members.names_append_cons] at hnames hclass hweak
    obtain ⟨_, hbehind, hapart⟩ := List.nodup_append.mp hnames
    have hreserved : ∀ name ∈ reserved, name ∉ before.names ++ after.names := by
      have hdict : "__dict__" ∉ before.names ++ after.names := (List.nodup_middle.mp hnames).notMem
      simp only [List.mem_append, List.mem_cons, not_or] at hclass hweak hdict
      simp [reserved, hclass, hweak, hdict]
    -- The table replaces what came before it, and the members behind it are set on top.
    rw [ofJson_replaced hbefore hrest.tail hreserved, ok_bind, toJson_restored hrest.tail]
    · constructor
      · exact fun hrestores => ⟨table, rfl, hrestores⟩
      · rintro ⟨_, hsame, hrestores⟩
        cases hsame
        exact hrestores
    · intro name hmem hfirst
      exact hapart name hfirst name (List.mem_cons_of_mem _ hmem) rfl
  · have hmem : ("__dict__", value) ∈ before ++ ("__dict__", value) :: after :=
      List.mem_append_right before List.mem_cons_self
    constructor
    · intro hwrite
      obtain ⟨settings, hread, _⟩ := bind_eq_ok.mp hwrite
      refine (ofJson_ne_ok_of_set hmem (fun start next hset => ?_) settings hread).elim
      cases value with
      | object table => exact htable ⟨table, rfl⟩
      | _ => cases hset
    · rintro ⟨table, hvalue, _⟩
      exact absurd ⟨table, hvalue⟩ htable

/-- Settings are read from members and written again. The result is the default settings overlaid by
the members, and the options of the formatting step by theirs, if and only if no member cannot be set
and either none takes the JSON form away, or one replaces all settings by a table and those behind it
give back what it took away. Where none of the reserved names occurs, unknown names change nothing: the
settings depend on the values of the three names only. Settings that have a JSON form are read back
from it. -/
theorem ofJson_overlay {members : Members} (h : WellTyped members) :
    ((ofJson (.object members) >>= toJson) = .ok (overlay members) ↔
      "__class__" ∉ members.names ∧ "__weakref__" ∉ members.names ∧
      ("__dict__" ∉ members.names → "to_dict" ∉ members.names) ∧
      ∀ before value after, members = before ++ ("__dict__", value) :: after →
        ∃ table, value = .object table ∧ Restores before table after) ∧
    (∀ other, WellTyped other →
      (∀ name ∈ "to_dict" :: reserved, name ∉ members.names ∧ name ∉ other.names) →
      (∀ name ∈ ["emit_enums", "add_generation_comment", "formatter"],
        members.lookup name = other.lookup name) →
      ofJson (.object members) = ofJson (.object other)) ∧
    ∀ settings options items, settings.exportable = true → settings.formatter = .options options →
      options.command = .array items → (settings.toJson >>= ofJson) = .ok settings := by
  refine ⟨?_, fun other hother hfree hsame => ?_, fun _ _ _ => ofJson_toJson⟩
  · -- The order of the members matters only where one of them replaces what was set before.
    by_cases hdict : "__dict__" ∈ members.names
    · obtain ⟨⟨_, value⟩, hmem, rfl⟩ := List.mem_map.mp hdict
      obtain ⟨before, after, rfl⟩ := List.append_of_mem hmem
      constructor
      · intro hwrite
        obtain ⟨settings, hread, _⟩ := bind_eq_ok.mp hwrite
        have hclass := fun hname => ofJson_ne_ok hname (.inl rfl) _ hread
        have hweak := fun hname => ofJson_ne_ok hname (.inr rfl) _ hread
        refine ⟨hclass, hweak, fun hnone => absurd hdict hnone, fun before value after hsame => ?_⟩
        rw [hsame] at h hclass hweak hwrite
        exact (overlay_iff_restores h hclass hweak).mp hwrite
      · rintro ⟨hclass, hweak, _, hrestores⟩
        exact (overlay_iff_restores h hclass hweak).mpr (hrestores before value after rfl)
    · rw [overlay_iff h hdict]
      constructor
      · rintro ⟨hexport, hclass, hweak⟩
        refine ⟨hclass, hweak, fun _ => hexport, fun before value after hsame => absurd ?_ hdict⟩
        rw [hsame, Members.names_append_cons]
        exact List.mem_append_right _ List.mem_cons_self
      · rintro ⟨hclass, hweak, hexport, _⟩
        exact ⟨hexport hdict, hclass, hweak⟩
  · obtain ⟨⟨hmembers, hnone⟩, hreserved⟩ := List.forall_mem_cons.mp hfree
    rw [ofJson_eq_overlaid h fun name hname => (hreserved name hname).1,
      ofJson_eq_overlaid hother fun name hname => (hreserved name hname).2,
      overlaid_congr {} hsame hmembers hnone]

/-- Two settings and something unknown. -/
def quietMembers : Members :=
  [("unknown_option", .int 1), ("formatter", .object [("print_width", .int 80)]),
    ("emit_enums", .bool true)]

theorem ofJson_overlay_quiet :
    WellTyped quietMembers ∧
      (ofJson (.object quietMembers) >>= toJson) = .ok (overlay quietMembers) ∧
      overlay quietMembers = .object [("emit_enums", .bool true),
        ("add_generation_comment", .bool true),
        ("formatter", .object [("enabled", .bool false), ("print_width", .int 80),
          ("command", .array [.string "npx", .string "--no-install", .string "prettier"])])] := by
  have htyped : WellTyped quietMembers := by
    refine ⟨by decide, fun value hvalue => ?_⟩
    cases hvalue
    refine ⟨_, rfl, ⟨by decide, by decide⟩, fun command hcommand => ?_⟩
    cases hcommand
  have hdict : "__dict__" ∉ quietMembers.names := by decide
  obtain ⟨hexport, _⟩ := ofJson_overlay htyped
  refine ⟨htyped, hexport.mpr ⟨by decide, by decide, fun _ => by decide, ?_⟩, rfl⟩
  intro before value after hsame
  refine absurd ?_ hdict
  rw [hsame, Members.names_append_cons]
  exact List.mem_append_right _ List.mem_cons_self

/-- Settings lose their JSON form to a member that is none of them. -/
theorem not_exported_of_stray :
    WellTyped [("to_dict", .int 1)] ∧ "__dict__" ∉ Members.names [("to_dict", .int 1)] ∧
      (∃ settings, ofJson (.object [("to_dict", .int 1)]) = .ok settings ∧
        settings.toJson = .error .call) ∧
      (ofJson (.object [("to_dict", .int 1)]) >>= toJson) ≠ .ok (overlay [("to_dict", .int 1)]) := by
  refine ⟨⟨by decide, fun value hvalue => ?_⟩, by decide, ⟨_, rfl, rfl⟩, fun hexport => ?_⟩
  · cases hvalue
  · cases hexport

end Settings

end ApiTypes
