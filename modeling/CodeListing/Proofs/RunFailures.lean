import CodeListing.CommandLine.Run

/-! # Runs that fail

A run can fail for several reasons at once: its file of settings cannot be read,
cannot be understood or makes no sense, and its input cannot be read. Only the first
reason is reported, in this order, and what comes after it has no part in the outcome.
No option repairs settings, and nothing that the listing finds makes a run fail.
-/

namespace CodeListing.CommandLine

inductive Unreadable (name : String) : Except ReadProblem ByteArray → Failure → Prop where
  | unread {problem} : Unreadable name (.error problem) (.cannotRead name problem)
  | notText {bytes} (invalid : String.fromUTF8? bytes = none) :
      Unreadable name (.ok bytes) (.cannotRead name .notText)

inductive Rejected (text : String) : SettingsError → Prop where
  | malformed {cause} (unparsed : Settings.readDocument text.toList = .error cause) :
      Rejected text (.malformed (.ofFailure text.toList cause))
  | invalid {settings violation} (parsed : Settings.readDocument text.toList = .ok settings)
      (violated : settings.violation? = some violation) : Rejected text (.invalid violation)

/-- The ways in which the file of settings makes a run fail. -/
inductive SettingsFail (sources : Sources) (invocation : Invocation) : Failure → Prop where
  | unreadable {name failure} (given : invocation.config = some name)
      (unreadable : Unreadable name (sources.file name) failure) :
      SettingsFail sources invocation failure
  | rejected {name bytes text error} (given : invocation.config = some name)
      (read : sources.file name = .ok bytes) (isText : String.fromUTF8? bytes = some text)
      (rejected : Rejected text error) : SettingsFail sources invocation (.settings error)

/-- The ways in which the input makes a run fail. -/
inductive InputFails (sources : Sources) (invocation : Invocation) : Failure → Prop where
  | standardInput {failure} (given : invocation.input = "-")
      (unreadable : Unreadable "<stdin>" (.ok sources.standardInput) failure) :
      InputFails sources invocation failure
  | file {failure} (given : invocation.input ≠ "-")
      (unreadable : Unreadable invocation.input (sources.file invocation.input) failure) :
      InputFails sources invocation failure

/-- The failure that a run reports. That of the input waits for good settings. -/
inductive Fails (sources : Sources) (invocation : Invocation) : Failure → Prop where
  | settings {failure} (fails : SettingsFail sources invocation failure) :
      Fails sources invocation failure
  | input {failure} (sound : ∀ other, ¬ SettingsFail sources invocation other)
      (fails : InputFails sources invocation failure) : Fails sources invocation failure

theorem decode_eq_error_iff {name : String} {bytes : Except ReadProblem ByteArray}
    {failure : Failure} : decode name bytes = .error failure ↔ Unreadable name bytes failure := by
  constructor
  · intro h
    unfold decode at h
    split at h
    · cases h
      exact .unread
    · split at h
      · rename_i hInvalid
        cases h
        exact .notText hInvalid
      · cases h
  · intro h
    cases h with
    | unread => rfl
    | notText invalid => simp only [decode, invalid]

theorem decode_eq_ok_iff {name : String} {bytes : Except ReadProblem ByteArray} {text : String} :
    decode name bytes = .ok text ↔
      ∃ read, bytes = .ok read ∧ String.fromUTF8? read = some text := by
  cases bytes with
  | error problem => simp [decode]
  | ok read =>
      cases hText : String.fromUTF8? read with
      | none => simp [decode, hText]
      | some found => simp [decode, hText]

theorem ofJson_eq_error_iff {text : String} {error : SettingsError} :
    Settings.ofJson text = .error error ↔ Rejected text error := by
  constructor
  · intro h
    unfold Settings.ofJson at h
    split at h
    · rename_i hParse
      cases h
      exact .malformed hParse
    · rename_i hParse
      unfold Settings.validate at h
      split at h
      · cases h
      · rename_i hViolated
        cases h
        exact .invalid hParse hViolated
  · intro h
    cases h with
    | malformed unparsed => simp only [Settings.ofJson, unparsed]
    | invalid parsed violated => simp only [Settings.ofJson, parsed, Settings.validate, violated]

section

variable {sources : Sources} {invocation : Invocation} {failure : Failure}

theorem fileSettings_eq_error_iff :
    fileSettings sources invocation = .error failure ↔ SettingsFail sources invocation failure := by
  constructor
  · intro h
    unfold fileSettings at h
    split at h
    · cases h
    · rename_i name hGiven
      split at h
      · rename_i hDecode
        cases h
        exact .unreadable hGiven (decode_eq_error_iff.1 hDecode)
      · rename_i text hDecode
        obtain ⟨bytes, hRead, hText⟩ := decode_eq_ok_iff.1 hDecode
        cases hJson : Settings.ofJson text with
        | error error =>
            rw [hJson] at h
            cases h
            exact .rejected hGiven hRead hText (ofJson_eq_error_iff.1 hJson)
        | ok settings =>
            rw [hJson] at h
            cases h
  · intro h
    cases h with
    | unreadable given unreadable =>
        simp only [fileSettings, given, decode_eq_error_iff.2 unreadable]
    | rejected given read isText rejected =>
        simp only [fileSettings, given, decode_eq_ok_iff.2 ⟨_, read, isText⟩,
          ofJson_eq_error_iff.2 rejected]
        rfl

/-- The options of a run do not repair its settings. -/
theorem loadSettings_eq_error_iff :
    loadSettings sources invocation = .error failure ↔ SettingsFail sources invocation failure := by
  rw [← fileSettings_eq_error_iff, loadSettings]
  cases fileSettings sources invocation with
  | error other => rfl
  | ok settings => exact iff_of_false nofun nofun

theorem loadInput_eq_error_iff :
    loadInput sources invocation = .error failure ↔ InputFails sources invocation failure := by
  rw [loadInput, decode_eq_error_iff, inputName]
  split
  · rename_i hDash
    constructor
    · exact .standardInput hDash
    · rintro (⟨-, hUnreadable⟩ | ⟨hFile, -⟩)
      · exact hUnreadable
      · exact absurd hDash hFile
  · rename_i hFile
    constructor
    · exact .file hFile
    · rintro (⟨hDash, -⟩ | ⟨-, hUnreadable⟩)
      · exact absurd hDash hFile
      · exact hUnreadable

theorem list_eq_error_iff :
    list sources invocation = .error failure ↔ Fails sources invocation failure := by
  unfold list
  cases hSettings : loadSettings sources invocation with
  | error first =>
      constructor
      · rintro ⟨⟩
        exact .settings (loadSettings_eq_error_iff.1 hSettings)
      · rintro (hFails | ⟨hSound, -⟩)
        · rw [← hSettings, loadSettings_eq_error_iff.2 hFails]
        · exact absurd (loadSettings_eq_error_iff.1 hSettings) (hSound first)
  | ok settings =>
      have hSound (other : Failure) : ¬ SettingsFail sources invocation other := by
        rw [← loadSettings_eq_error_iff, hSettings]
        exact nofun
      cases hInput : loadInput sources invocation with
      | error first =>
          constructor
          · rintro ⟨⟩
            exact .input hSound (loadInput_eq_error_iff.1 hInput)
          · rintro (hFails | ⟨-, hFails⟩)
            · exact absurd hFails (hSound failure)
            · rw [← hInput, loadInput_eq_error_iff.2 hFails]
      | ok source =>
          refine iff_of_false nofun ?_
          rintro (hFails | ⟨-, hFails⟩)
          · exact hSound failure hFails
          · rw [← loadInput_eq_error_iff, hInput] at hFails
            cases hFails

/-- A run reports a failure exactly if its settings or its input fail. -/
theorem exists_fails_iff : (∃ failure, Fails sources invocation failure) ↔
    (∃ failure, SettingsFail sources invocation failure) ∨
      ∃ failure, InputFails sources invocation failure := by
  constructor
  · rintro ⟨failure, hFails | ⟨-, hFails⟩⟩
    · exact .inl ⟨failure, hFails⟩
    · exact .inr ⟨failure, hFails⟩
  · intro h
    by_cases hSettings : ∃ failure, SettingsFail sources invocation failure
    · exact hSettings.imp fun _ => .settings
    · exact (h.resolve_left hSettings).imp fun _ => .input (not_exists.1 hSettings)

theorem SettingsFail.congr {others : Sources} {other : Invocation}
    (h : SettingsFail sources invocation failure) (hConfig : other.config = invocation.config)
    (hFile : ∀ name, invocation.config = some name → others.file name = sources.file name) :
    SettingsFail others other failure := by
  cases h with
  | unreadable given unreadable =>
      exact .unreadable (hConfig.trans given) (hFile _ given ▸ unreadable)
  | rejected given read isText rejected =>
      exact .rejected (hConfig.trans given) ((hFile _ given).trans read) isText rejected

variable {arguments : List String}

theorem run_of_fails (hArguments : Invocation.ofArguments arguments = .ok invocation)
    (hFails : Fails sources invocation failure) :
    run sources arguments = ⟨1, "", "prettifier: " ++ failure.message ++ "\n"⟩ := by
  simp only [run, hArguments, list_eq_error_iff.2 hFails]

theorem run_of_not_fails (hArguments : Invocation.ofArguments arguments = .ok invocation)
    (hSound : ¬ ∃ failure, Fails sources invocation failure) :
    ∃ settings source, loadSettings sources invocation = .ok settings ∧
      loadInput sources invocation = .ok source ∧
      run sources arguments =
        ⟨0, present invocation.wrap settings (Listing.ofSource settings source),
          if invocation.warnings then
            reports (inputName invocation) source (Listing.ofSource settings source).warnings
          else ""⟩ := by
  cases hSettings : loadSettings sources invocation with
  | error failure =>
      exact absurd ⟨failure, .settings (loadSettings_eq_error_iff.1 hSettings)⟩ hSound
  | ok settings =>
      cases hInput : loadInput sources invocation with
      | error failure =>
          refine absurd ⟨failure, list_eq_error_iff.1 ?_⟩ hSound
          simp only [list, hSettings, hInput]
      | ok source =>
          refine ⟨settings, source, rfl, rfl, ?_⟩
          simp only [run, hArguments, list, hSettings, hInput]

end

/-- What failures do to a run that has its arguments. They and nothing else decide the code, which
is 0 or 1. A run that fails prints nothing but the one failure that it reports, and one that fails
for its settings does the same whatever its input and its other arguments are. Whatever the
listing warns of is reported by a run that succeeds. -/
theorem run_failures (sources : Sources) {arguments : List String} {invocation : Invocation}
    (hArguments : Invocation.ofArguments arguments = .ok invocation) :
    let outcome := run sources arguments
    (outcome.code = 0 ∨ outcome.code = 1) ∧
    (outcome.code = 1 ↔ (∃ failure, SettingsFail sources invocation failure) ∨
      ∃ failure, InputFails sources invocation failure) ∧
    (outcome.code = 1 → ∃ failure, Fails sources invocation failure) ∧
    (∀ failure, Fails sources invocation failure →
      outcome = ⟨1, "", "prettifier: " ++ failure.message ++ "\n"⟩) ∧
    (∀ failure, SettingsFail sources invocation failure →
      ∀ others more other, Invocation.ofArguments more = .ok other →
        other.config = invocation.config →
        (∀ name, invocation.config = some name → others.file name = sources.file name) →
        run others more = outcome) ∧
    (outcome.code = 0 → ∃ settings source, loadSettings sources invocation = .ok settings ∧
      loadInput sources invocation = .ok source ∧
      outcome.output = present invocation.wrap settings (Listing.ofSource settings source) ∧
      outcome.errors =
        if invocation.warnings then
          reports (inputName invocation) source (Listing.ofSource settings source).warnings
        else "") := by
  intro outcome
  rw [← exists_fails_iff]
  have hFailed (failure : Failure) (hFails : Fails sources invocation failure) :
      outcome = ⟨1, "", "prettifier: " ++ failure.message ++ "\n"⟩ :=
    run_of_fails hArguments hFails
  by_cases hFails : ∃ failure, Fails sources invocation failure
  · have hCode : outcome.code = 1 := by
      obtain ⟨failure, hFails⟩ := hFails
      rw [hFailed failure hFails]
    refine ⟨.inr hCode, iff_of_true hCode hFails, fun _ => hFails, hFailed, ?_, ?_⟩
    · intro failure hSettings others more other hMore hConfig hFile
      rw [hFailed failure (.settings hSettings)]
      exact run_of_fails hMore (.settings (hSettings.congr hConfig hFile))
    · intro hZero
      rw [hCode] at hZero
      cases hZero
  · obtain ⟨settings, source, hSettings, hInput, hRun⟩ := run_of_not_fails hArguments hFails
    have hCode : outcome.code = 0 := congrArg Outcome.code hRun
    have hNot : outcome.code ≠ 1 := by
      rw [hCode]
      decide
    refine ⟨.inl hCode, iff_of_false hNot hFails, fun hOne => absurd hOne hNot, hFailed, ?_, ?_⟩
    · intro failure hSettings
      exact absurd ⟨failure, .settings hSettings⟩ hFails
    · intro _
      exact ⟨settings, source, hSettings, hInput, congrArg Outcome.output hRun,
        congrArg Outcome.errors hRun⟩

/-- Settings without depth, an input that is no text, and arguments that would change the padding:
the settings are reported, and in the same way for an input that is not there. -/
theorem run_failures_settings :
    let file : String → Except ReadProblem ByteArray :=
      fun name => if name = "settings" then .ok "[20,4,0]".toUTF8 else .error .notFound
    let outcome : Outcome :=
      ⟨1, "", "prettifier: Invalid configuration: max_member_depth must be at least 1\n"⟩
    run ⟨⟨#[255]⟩, file⟩ ["--config", "settings", "--indent-unit", "4"] = outcome ∧
      run ⟨"a".toUTF8, file⟩ ["in.js", "--wrap", "--config=settings"] = outcome := by
  intro file outcome
  have hArguments : Invocation.ofArguments ["--config", "settings", "--indent-unit", "4"] =
    .ok { config := some "settings", indentUnit := some 4 } := rfl
  have hParsed : Settings.readDocument "[20,4,0]".toList = .ok { maxMemberDepth := 0 } :=
    rfl
  have hSettings : SettingsFail ⟨⟨#[255]⟩, file⟩
      { config := some "settings", indentUnit := some 4 } (.settings (.invalid .zeroMemberDepth)) :=
    .rejected rfl rfl (by decide +kernel) (.invalid hParsed rfl)
  obtain ⟨-, -, -, hFailed, hSame, -⟩ := run_failures ⟨⟨#[255]⟩, file⟩ hArguments
  have hOutcome := hFailed _ (.settings hSettings)
  refine ⟨hOutcome, ?_⟩
  exact (hSame _ hSettings ⟨"a".toUTF8, file⟩ ["in.js", "--wrap", "--config=settings"]
    { input? := some "in.js", config := some "settings", wrap := true } rfl rfl
    (fun _ _ => rfl)).trans hOutcome

end CodeListing.CommandLine
