import PageRefresh.Proofs.CommandLine.Run
import Mathlib.Logic.ExistsUnique

/-!
What the user's and the project's file come to.

A file that need not be there comes to one thing (`ComesTo`): a configuration, which leaves
everything open if there is no file, or an error.  What the two come to decides what configuration
is in force, and nothing else does.  The first error counts; without one, fields come from the
project where it sets them and from the user where it does not, and only the interval that this
leaves must be in bounds.  Every command looks for the same configuration, whatever it was asked
for.
-/

namespace PageRefresh

open CommandLine Script

/-- What an optional file comes to, on its own. -/
inductive ComesTo : Option ConfigFile → Except ConfigError Config → Prop where
  | noPath : ComesTo none (.ok .empty)
  | missing (path : String) : ComesTo (some ⟨path, .missing⟩) (.ok .empty)
  | directory (path : String) :
      ComesTo (some ⟨path, .directory⟩) (.error (.unreadable .isDirectory))
  | unreadable (path reason : String) :
      ComesTo (some ⟨path, .unreadable reason⟩) (.error (.unreadable (.other reason)))
  | notText (path : String) {content : ByteArray} (htext : String.fromUTF8? content = none) :
      ComesTo (some ⟨path, .file content⟩) (.error (.unreadable .invalidUtf8))
  | notConfig (path : String) {content : ByteArray} {text : String}
      (htext : String.fromUTF8? content = some text) (hconfig : Config.ofToml? text = none) :
      ComesTo (some ⟨path, .file content⟩) (.error (.unparsable path unexplained))
  | config (path : String) {content : ByteArray} {text : String} {c : Config}
      (htext : String.fromUTF8? content = some text) (hconfig : Config.ofToml? text = some c) :
      ComesTo (some ⟨path, .file content⟩) (.ok c)

/-! ## One file -/

theorem ConfigFile.loadOptional_comesTo (f : ConfigFile) : ComesTo (some f) f.loadOptional.1 := by
  obtain ⟨path, source⟩ := f
  cases source with
  | missing => exact .missing path
  | directory => exact .directory path
  | unreadable reason => exact .unreadable path reason
  | file content =>
      cases htext : String.fromUTF8? content with
      | none =>
          simp only [loadOptional, load, Source.read, htext]
          exact .notText path htext
      | some text =>
          cases hconfig : Config.ofToml? text with
          | none =>
              simp only [loadOptional, load, Source.read, htext, hconfig]
              exact .notConfig path htext hconfig
          | some c =>
              simp only [loadOptional, load, Source.read, htext, hconfig]
              exact .config path htext hconfig

section OneFile

variable {f : ConfigFile} {u : Except ConfigError Config}

theorem ComesTo.of_none (hfile : ComesTo none u) : u = .ok .empty := by
  cases hfile with
  | noPath => rfl

/-- Loading a file finds what it comes to. -/
theorem ComesTo.eq_loadOptional (hfile : ComesTo (some f) u) : u = f.loadOptional.1 := by
  cases hfile with
  | notText path htext =>
      simp only [ConfigFile.loadOptional, ConfigFile.load, Source.read, htext]
  | notConfig path htext hconfig =>
      simp only [ConfigFile.loadOptional, ConfigFile.load, Source.read, htext, hconfig]
  | config path htext hconfig =>
      simp only [ConfigFile.loadOptional, ConfigFile.load, Source.read, htext, hconfig]
  | _ => rfl

end OneFile

theorem existsUnique_comesTo (file : Option ConfigFile) : ∃! u, ComesTo file u := by
  cases file with
  | none => exact ⟨_, .noPath, fun u hfile => hfile.of_none⟩
  | some f => exact ⟨_, f.loadOptional_comesTo, fun u hfile => hfile.eq_loadOptional⟩

/-! ## Merging -/

namespace Config

theorem merge_assoc (a b c : Config) : (a.merge b).merge c = a.merge (b.merge c) := by
  simp only [merge, Option.or_assoc]

@[simp]
theorem empty_merge (c : Config) : empty.merge c = c := by
  simp [merge, empty]

@[simp]
theorem merge_empty (c : Config) : c.merge empty = c := by
  simp [merge, empty]

/-- An interval that a configuration may set. -/
def InBounds (secs : UInt64) : Prop :=
  1 ≤ secs.toNat ∧ secs.toNat ≤ 86400

instance (secs : UInt64) : Decidable (InBounds secs) :=
  inferInstanceAs (Decidable (_ ∧ _))

variable {c : Config} {secs : UInt64}

theorem validate_zero (hsecs : c.intervalSecs = some 0) :
    c.validate = .error (.invalid .intervalTooShort) := by
  simp [validate, hsecs]

theorem validate_long (hsecs : c.intervalSecs = some secs) (hlong : 86400 < secs.toNat) :
    c.validate = .error (.invalid (.intervalTooLong secs.toNat)) := by
  have hpos : secs ≠ 0 := by
    rintro rfl
    contradiction
  simp [validate, hsecs, hpos, maxIntervalSecs, hlong]

theorem validate_ok_iff : c.validate = .ok () ↔ ∀ secs ∈ c.intervalSecs, InBounds secs := by
  cases hsecs : c.intervalSecs with
  | none => simp [validate, hsecs]
  | some secs =>
      simp only [Option.mem_def, Option.some.injEq, forall_eq', InBounds]
      by_cases hzero : secs = 0
      · subst hzero
        simp [validate_zero hsecs]
      · have hpos : secs.toNat ≠ 0 := by
          rw [← UInt64.toNat_zero, ne_eq, UInt64.toNat_inj]
          exact hzero
        by_cases hlong : 86400 < secs.toNat
        · simp [validate_long hsecs hlong, hlong]
        · simp only [validate, hsecs, hzero, maxIntervalSecs, hlong, ↓reduceIte, true_iff]
          omega

/-- The interval in force is in bounds, set or not. -/
theorem effectiveSecs_inBounds (hvalid : c.validate = .ok ()) : InBounds c.effectiveSecs := by
  cases hsecs : c.intervalSecs with
  | none =>
      rw [effectiveSecs, hsecs]
      decide
  | some secs =>
      rw [effectiveSecs, hsecs]
      exact validate_ok_iff.mp hvalid secs hsecs

end Config

/-! ## Both files -/

section Hierarchy

variable {user project : Option ConfigFile} {u p : Except ConfigError Config}

/-- Merging a file that need not be there goes by what it comes to. -/
theorem loadMerged_of_comesTo {file : Option ConfigFile} (hfile : ComesTo file u) (base : Config)
    (rest : List ConfigFile) :
    (loadMerged base (file.toList ++ rest)).1 =
      u.bind fun c => (loadMerged (base.merge c) rest).1 := by
  cases file with
  | none =>
      obtain rfl := hfile.of_none
      rw [Except.bind, Config.merge_empty]
      rfl
  | some f =>
      rw [hfile.eq_loadOptional, Option.toList_some, List.singleton_append, loadMerged]
      rcases f.loadOptional with ⟨e | c, events⟩ <;> rfl

/-- What each file comes to is all that counts. -/
theorem loadHierarchy_of_comesTo (huser : ComesTo user u) (hproject : ComesTo project p) :
    (loadHierarchy user project).1 =
      u.bind fun c => p.bind fun c' =>
        (c.merge c').validate.map fun _ => c.merge c' := by
  have hlater : ∀ base, (loadMerged base project.toList).1 = p.map base.merge := by
    intro base
    have hlast := loadMerged_of_comesTo hproject base []
    rw [List.append_nil] at hlast
    rw [hlast]
    cases p <;> rfl
  have hmerged := loadMerged_of_comesTo huser .empty project.toList
  simp only [Config.empty_merge, hlater] at hmerged
  rw [loadHierarchy]
  rcases hload : loadMerged .empty (user.toList ++ project.toList) with ⟨result, events⟩
  rw [hload] at hmerged
  obtain rfl : result = _ := hmerged
  cases u with
  | error e => rfl
  | ok c =>
      cases p with
      | error e => rfl
      | ok c' =>
          simp only [Except.bind, Except.map]
          cases (c.merge c').validate <;> rfl

/-- A configuration in force has passed the check. -/
theorem validate_of_loadHierarchy (huser : ComesTo user u) (hproject : ComesTo project p)
    {c : Config} (hok : (loadHierarchy user project).1 = .ok c) : c.validate = .ok () := by
  rw [loadHierarchy_of_comesTo huser hproject] at hok
  cases u with
  | error e => contradiction
  | ok base =>
      cases p with
      | error e => contradiction
      | ok later =>
          cases hvalidate : (base.merge later).validate with
          | error e => simp [Except.bind, Except.map, hvalidate] at hok
          | ok value =>
              obtain rfl : base.merge later = c := by
                simpa [Except.bind, Except.map, hvalidate] using hok
              exact hvalidate

end Hierarchy

/-! ## Commands -/

namespace CommandLine

variable {env : Environment} {command : Command} {steps : List Step}

/-- A command whose steps can be read succeeds if the configuration can be had. -/
theorem exitCode_eq_zero_iff (hsteps : readSteps command.inputs = .ok steps) :
    (run env command).exitCode = 0 ↔ ∃ c, env.config.1 = .ok c := by
  rcases hconfig : env.config with ⟨e | c, loaded⟩
  · simp [run_unconfigured hsteps hconfig]
  · simp [run_done hsteps hconfig]

/-- Otherwise it says what is wrong with the configuration, whatever the command is. -/
theorem errors_eq (hsteps : readSteps command.inputs = .ok steps) :
    (run env command).errors =
      match env.config.1 with
      | .error e => [configFailure e]
      | .ok _ => [] := by
  rcases hconfig : env.config with ⟨e | c, loaded⟩
  · rw [run_unconfigured hsteps hconfig]
  · rw [run_done hsteps hconfig]

end CommandLine

/-! ## The configuration in force -/

/-- What comes of two configurations, of which the later one goes first. -/
structure Config.Resolves (base later : Config) (result : Except ConfigError Config) : Prop where
  short : later.intervalSecs.or base.intervalSecs = some 0 →
    result = .error (.invalid .intervalTooShort)
  long : ∀ secs, later.intervalSecs.or base.intervalSecs = some secs → 86400 < secs.toNat →
    result = .error (.invalid (.intervalTooLong secs.toNat))
  inBounds : (∀ secs ∈ later.intervalSecs.or base.intervalSecs, Config.InBounds secs) →
    result = .ok ⟨later.intervalSecs.or base.intervalSecs, later.policy.or base.policy⟩
  /-- An interval that the later one overrides does no harm. -/
  overridden : ∀ secs, later.intervalSecs = some secs → Config.InBounds secs →
    result = .ok ⟨some secs, later.policy.or base.policy⟩

/-- What comes of a user's file and a project's, by what each of them comes to. -/
structure HierarchyOf (user project result : Except ConfigError Config) : Prop where
  /-- What is wrong with the user's file comes first, ... -/
  userError : ∀ e, user = .error e → result = .error e
  /-- ... then what is wrong with the project's. -/
  projectError : ∀ c e, user = .ok c → project = .error e → result = .error e
  /-- Otherwise fields come from the project, or else from the user, and are checked then. -/
  resolved : ∀ c c', user = .ok c → project = .ok c' → c.Resolves c' result
  /-- An interval that the project sets and may not set always does harm. -/
  outOfBounds : ∀ c' secs, project = .ok c' → c'.intervalSecs = some secs →
    ¬ Config.InBounds secs → ∃ e, result = .error e
  bounded : ∀ c, result = .ok c → Config.InBounds c.effectiveSecs

/-- Two commands get the same configuration, or fail for the same reason. -/
structure SameConfig (env : Environment) (first second : Command) : Prop where
  exitCode : (run env first).exitCode = 0 ↔ (run env second).exitCode = 0
  errors : (run env first).errors = (run env second).errors
  found : (run env second).exitCode = 0 ↔
    ∃ c, (loadHierarchy env.userFile env.projectFile).1 = .ok c

theorem Config.resolves (base later : Config) :
    base.Resolves later ((base.merge later).validate.map fun _ => base.merge later) := by
  have hmerged : (base.merge later).intervalSecs = later.intervalSecs.or base.intervalSecs := rfl
  have hvalid : (∀ secs ∈ later.intervalSecs.or base.intervalSecs, Config.InBounds secs) →
      (base.merge later).validate = .ok () := by
    rw [Config.validate_ok_iff, hmerged]
    exact id
  constructor
  case short =>
    intro hzero
    rw [Config.validate_zero (hmerged.trans hzero)]
    rfl
  case long =>
    intro secs hsecs hlong
    rw [Config.validate_long (hmerged.trans hsecs) hlong]
    rfl
  case inBounds =>
    intro hbounds
    rw [hvalid hbounds]
    rfl
  case overridden =>
    intro secs hsecs hbounds
    have hinterval : later.intervalSecs.or base.intervalSecs = some secs := by simp [hsecs]
    rw [hvalid (by simpa [hinterval] using hbounds), ← hinterval]
    rfl

theorem hierarchyOf {user project : Option ConfigFile} {u p : Except ConfigError Config}
    (huser : ComesTo user u) (hproject : ComesTo project p) :
    HierarchyOf u p (loadHierarchy user project).1 := by
  have hresult : (loadHierarchy user project).1 = _ := loadHierarchy_of_comesTo huser hproject
  have hboth : ∀ c c', u = .ok c → p = .ok c' →
      (loadHierarchy user project).1 = (c.merge c').validate.map fun _ => c.merge c' := by
    rintro c c' rfl rfl
    exact hresult
  constructor
  case userError =>
    rintro e rfl
    exact hresult
  case projectError =>
    rintro c e rfl rfl
    exact hresult
  case resolved =>
    intro c c' hu hp
    rw [hboth c c' hu hp]
    exact c.resolves c'
  case outOfBounds =>
    intro c' secs hp hsecs hout
    cases u with
    | error e => exact ⟨e, hresult⟩
    | ok c =>
        rw [hboth c c' rfl hp]
        cases hvalidate : (c.merge c').validate with
        | error e => exact ⟨e, rfl⟩
        | ok value =>
            have hset : secs ∈ (c.merge c').intervalSecs := by simp [Config.merge, hsecs]
            exact absurd (Config.validate_ok_iff.mp hvalidate secs hset) hout
  case bounded =>
    exact fun c hok =>
      Config.effectiveSecs_inBounds (validate_of_loadHierarchy huser hproject hok)

/-- Every file comes to one thing, be it there or not, and two files come to one configuration.
Merging is associative, a configuration that leaves everything open is neutral, and no option of a
command makes up for a configuration that cannot be had. -/
theorem config_resolution (user project : Option ConfigFile) :
    (∀ file, ∃! u, ComesTo file u) ∧
      (∀ u p, ComesTo user u → ComesTo project p →
        HierarchyOf u p (loadHierarchy user project).1) ∧
      (∀ a b c : Config, (a.merge b).merge c = a.merge (b.merge c)) ∧
      (∀ c : Config, Config.empty.merge c = c ∧ c.merge .empty = c) ∧
      (∀ env json json' policy interval inputs steps, readSteps inputs = .ok steps →
        SameConfig env (.simulate json policy interval inputs) (.config json')) := by
  refine ⟨existsUnique_comesTo, fun u p => hierarchyOf, Config.merge_assoc,
    fun c => ⟨Config.empty_merge c, Config.merge_empty c⟩, ?_⟩
  intro env json json' policy interval inputs steps hsteps
  have hshown : readSteps (Command.config json').inputs = .ok [] := rfl
  have hsimulated : readSteps (Command.simulate json policy interval inputs).inputs = .ok steps :=
    hsteps
  refine ⟨?_, ?_, exitCode_eq_zero_iff hshown⟩
  · rw [exitCode_eq_zero_iff hsimulated, exitCode_eq_zero_iff hshown]
  · rw [errors_eq hsimulated, errors_eq hshown]

/-- A file that sets an interval of no time. -/
def overridden : String :=
  "[refresh]\ninterval_secs = 0\nbroadcast_policy = \"abort\"\n"

def overriding : String :=
  "[refresh]\ninterval_secs = 5\n"

theorem config_resolution_overridden :
    (loadHierarchy (some ⟨"user", .file overridden.toUTF8⟩)
      (some ⟨"project", .file overriding.toUTF8⟩)).1 = .ok ⟨some 5, some .abort⟩ := by
  have htext : String.fromUTF8? overridden.toUTF8 = some overridden := by decide +kernel
  have htext' : String.fromUTF8? overriding.toUTF8 = some overriding := by decide +kernel
  have huser : ComesTo (some ⟨"user", .file overridden.toUTF8⟩) (.ok ⟨some 0, some .abort⟩) :=
    .config "user" htext (by decide +kernel)
  have hproject : ComesTo (some ⟨"project", .file overriding.toUTF8⟩) (.ok ⟨some 5, none⟩) :=
    .config "project" htext' (by decide +kernel)
  obtain ⟨-, hresult, -⟩ := config_resolution (some ⟨"user", .file overridden.toUTF8⟩)
    (some ⟨"project", .file overriding.toUTF8⟩)
  have hresolved := (hresult _ _ huser hproject).resolved _ _ rfl rfl
  exact hresolved.overridden 5 rfl (by decide)

end PageRefresh
