import PageRefresh.Proofs.Config.Resolution
import PageRefresh.Proofs.Toml.Plain

/-!
The configuration that is printed.

The configuration in force is printed as a document of plain lines, which shares nothing with the
reader of configuration files.  The two agree: what is printed is read back as a configuration that
leaves nothing open (`ofToml?_effectiveLines`).  As a project's file it therefore decides both
fields, whatever the user's file says.
-/

namespace PageRefresh.CommandLine

open Script (readSteps)
open Toml (Line documentOf isTextChar)

/-- What is printed, as one text. -/
def Output.stdout (o : Output) : String :=
  String.join (o.printed.map (· ++ "\n"))

/-- The lines that the configuration in force is printed as. -/
def effectiveLines (c : Config) (userPath : Option String) : List Line :=
  [.header "refresh", .integer "interval_secs" c.effectiveSecs.toNat,
      .string "broadcast_policy" c.effectivePolicy.name] ++
    match userPath with
    | some path => [.blank, .comment ("user config: " ++ path)]
    | none => []

variable (c : Config) (userPath : Option String)

theorem effectiveRows_eq :
    effectiveRows c userPath = (effectiveLines c userPath).map Line.text := by
  cases userPath with
  | none => rfl
  | some path =>
      have hcomment : "# user config: " ++ path = "# " ++ ("user config: " ++ path) := by
        rw [← String.append_assoc]
        rfl
      rw [effectiveRows, hcomment]
      rfl

theorem toList_stdout {o : Output} (lines : List Line)
    (hprinted : o.printed = lines.map Line.text) : o.stdout.toList = documentOf lines := by
  rw [Output.stdout, hprinted, String.toList_join, documentOf, List.map_map, List.flatMap_map]
  refine List.flatMap_congr fun line _ => ?_
  simp

/-- The table that these statements make holds both fields. -/
theorem ofDocument?_effective (n : Nat) (policy : BroadcastPolicy) :
    ((Toml.Draft.empty.addAll? [.table ⟨[], "refresh"⟩,
      .entry ⟨[], "interval_secs"⟩ (.scalar (.integer n)),
      .entry ⟨[], "broadcast_policy"⟩ (.string policy.name)]).bind Toml.Draft.close?).bind
        Config.ofDocument? = some ⟨some (UInt64.ofNat n), some policy⟩ := by
  have hdocument : (Toml.Draft.empty.addAll? [.table ⟨[], "refresh"⟩,
      .entry ⟨[], "interval_secs"⟩ (.scalar (.integer n)),
      .entry ⟨[], "broadcast_policy"⟩ (.string policy.name)]).bind Toml.Draft.close? =
        some [("refresh", .table .explicit [("interval_secs", .scalar (.integer n)),
          ("broadcast_policy", .string policy.name)])] := rfl
  have hpolicy := BroadcastPolicy.ofName?_name policy
  rw [hdocument]
  simp [Config.ofDocument?, Config.ofRefresh?, Config.ofMembers?, Config.ofNodes?, optionalField,
    Toml.Node.interval?, Toml.Node.policy?, Toml.Members.get?, List.lookup_cons, hpolicy]

theorem effectiveLines_plain {c : Config} {userPath : Option String}
    (hsecs : Config.InBounds c.effectiveSecs)
    (hpath : ∀ path ∈ userPath, path.toList.all isTextChar = true) :
    ∀ line ∈ effectiveLines c userPath, line.Plain := by
  have hheader : (Line.header "refresh").Plain := by decide
  have hinterval : (Line.integer "interval_secs" c.effectiveSecs.toNat).Plain := by
    refine ⟨by decide, ?_⟩
    have hmax : Int64.maxValue.toInt = 9223372036854775807 := rfl
    have hlong := hsecs.2
    omega
  have hpolicy : (Line.string "broadcast_policy" c.effectivePolicy.name).Plain := by
    cases c.effectivePolicy <;> decide
  cases userPath with
  | none =>
      simp only [effectiveLines, List.append_nil, List.forall_mem_cons]
      exact ⟨hheader, hinterval, hpolicy, by simp⟩
  | some path =>
      have hcomment : (Line.comment ("user config: " ++ path)).Plain := by
        rw [Line.Plain, String.toList_append, List.all_append, hpath path rfl]
        decide
      simp only [effectiveLines, List.cons_append, List.nil_append, List.forall_mem_cons]
      exact ⟨hheader, hinterval, hpolicy, trivial, hcomment, by simp⟩

variable {c : Config} {userPath : Option String}

/-- What is printed is read back, with nothing left open. -/
theorem ofToml?_effectiveLines {o : Output} (hprinted : o.printed = effectiveRows c userPath)
    (hsecs : Config.InBounds c.effectiveSecs)
    (hpath : ∀ path ∈ userPath, path.toList.all isTextChar = true) :
    Config.ofToml? o.stdout = some ⟨some c.effectiveSecs, some c.effectivePolicy⟩ := by
  have hlist : o.stdout.toList = documentOf (effectiveLines c userPath) :=
    toList_stdout _ (hprinted.trans (effectiveRows_eq c userPath))
  have hstatements : (effectiveLines c userPath).filterMap Line.statement? =
      [.table ⟨[], "refresh"⟩,
        .entry ⟨[], "interval_secs"⟩ (.scalar (.integer c.effectiveSecs.toNat)),
        .entry ⟨[], "broadcast_policy"⟩ (.string c.effectivePolicy.name)] := by
    cases userPath <;> rfl
  have hdocument := ofDocument?_effective c.effectiveSecs.toNat c.effectivePolicy
  rw [UInt64.ofNat_toNat, ← hstatements] at hdocument
  rw [Config.ofToml?, Toml.read, Toml.readChars, hlist,
    Toml.readStatements_documentOf (effectiveLines_plain hsecs hpath), Option.bind_some]
  exact hdocument

/-- The place of a configuration file is printed as it is if its directory is. -/
theorem configPath_isTextChar {directory : String}
    (hdirectory : directory.toList.all isTextChar = true) :
    (configPath directory).toList.all isTextChar = true := by
  rw [configPath, String.toList_append, List.all_append]
  split
  · rw [hdirectory]
    decide
  · rw [String.toList_append, List.all_append, hdirectory]
    decide

/-! ## Reading it back -/

theorem fromUTF8?_toUTF8 (s : String) : String.fromUTF8? s.toUTF8 = some s := by
  rw [String.fromUTF8?]
  exact dif_pos s.isValidUTF8

variable {env : Environment}

/-- A configuration that leaves nothing open is in force if it is the project's and may be. -/
theorem config_of_project {secs : UInt64} {policy : BroadcastPolicy} {cu : Config}
    (huser : ComesTo env.userFile (.ok cu))
    (hproject : ComesTo (some env.projectFile) (.ok ⟨some secs, some policy⟩))
    (hsecs : Config.InBounds secs) : env.config.1 = .ok ⟨some secs, some policy⟩ := by
  have hvalid : (⟨some secs, some policy⟩ : Config).validate = .ok () :=
    Config.validate_ok_iff.mpr (by simpa using hsecs)
  rw [Environment.config, loadHierarchy_of_comesTo huser hproject]
  simp only [Except.bind, Config.merge, Option.some_or, hvalid, Except.map]

/-- A configuration in force has passed the check. -/
theorem validate_of_config (hconfig : env.config.1 = .ok c) : c.validate = .ok () := by
  obtain ⟨u, huser, -⟩ := existsUnique_comesTo env.userFile
  exact validate_of_loadHierarchy huser env.projectFile.loadOptional_comesTo hconfig

theorem readSteps_config : readSteps (Command.config false).inputs = .ok [] := rfl

theorem run_config (hconfig : env.config.1 = .ok c) :
    (run env (.config false)).exitCode = 0 ∧
      (run env (.config false)).printed = effectiveRows c (env.userFile.map ConfigFile.path) :=
  ⟨(exitCode_eq_zero_iff readSteps_config).mpr ⟨c, hconfig⟩, run_config_printed hconfig false⟩

/-- What is printed of a configuration is a matter of what is in force. -/
theorem take_effectiveRows {c c' : Config} (hsecs : c.effectiveSecs = c'.effectiveSecs)
    (hpolicy : c.effectivePolicy = c'.effectivePolicy) (userPath userPath' : Option String) :
    (effectiveRows c userPath).take 3 = (effectiveRows c' userPath').take 3 := by
  simp [effectiveRows, hsecs, hpolicy]

/-- A file of this content has this configuration, which is printed in these lines. -/
structure ReadsBack (shown : Config) (source : Source) (lines : List String) : Prop where
  /-- So it is anywhere in the file system, ... -/
  load : ∀ path, ConfigFile.load ⟨path, source⟩ = .ok shown
  /-- ... and the check is passed. -/
  valid : shown.validate = .ok ()
  /-- As a project's file it is in force wherever the user's file is readable, ... -/
  inForce : ∀ (env : Environment) (cu : Config), env.project = source →
    ComesTo env.userFile (.ok cu) → env.config.1 = .ok shown
  /-- ... and so it is printed again. -/
  again : ∀ (env : Environment) (cu : Config), env.project = source →
    ComesTo env.userFile (.ok cu) →
      (run env (.config false)).exitCode = 0 ∧
        (run env (.config false)).printed.take 3 = lines.take 3

/-- What is printed of the configuration in force is a file of the configuration in force. -/
theorem printed_config_read_back
    (hok : (run env (.config false)).exitCode = 0)
    (hhome : ∀ home ∈ env.home, ∀ c ∈ home.toList, 0x20 ≤ c.toNat ∧ c.toNat ≠ 0x7F) :
    ∃ c, env.config.1 = .ok c ∧
      ReadsBack ⟨some c.effectiveSecs, some c.effectivePolicy⟩
        (.file (run env (.config false)).stdout.toUTF8) (run env (.config false)).printed := by
  obtain ⟨c, hconfig⟩ := (exitCode_eq_zero_iff readSteps_config).mp hok
  refine ⟨c, hconfig, ?_⟩
  let shown : Config := ⟨some c.effectiveSecs, some c.effectivePolicy⟩
  let source := Source.file (run env (.config false)).stdout.toUTF8
  obtain ⟨-, hprinted⟩ := run_config hconfig
  have hsecs := Config.effectiveSecs_inBounds (validate_of_config hconfig)
  have hpath : ∀ path ∈ env.userFile.map ConfigFile.path, path.toList.all isTextChar = true := by
    intro path hmem
    obtain ⟨home, hsome, rfl⟩ : ∃ home ∈ env.home, configPath home = path := by
      simpa [Environment.userFile] using hmem
    refine configPath_isTextChar (List.all_eq_true.mpr fun c hc => ?_)
    simp [isTextChar, hhome home hsome c hc]
  have hread : Config.ofToml? (run env (.config false)).stdout = some shown :=
    ofToml?_effectiveLines hprinted hsecs hpath
  have hinForce : ∀ env' : Environment, ∀ cu, env'.project = source →
      ComesTo env'.userFile (.ok cu) → env'.config.1 = .ok shown := by
    intro env' cu hproject huser
    have hfile : env'.projectFile = ⟨configPath env'.directory, source⟩ := by
      rw [Environment.projectFile, hproject]
    exact config_of_project huser (hfile ▸ .config _ (fromUTF8?_toUTF8 _) hread) hsecs
  constructor
  case load =>
    intro path
    simp only [ConfigFile.load, Source.read, fromUTF8?_toUTF8, hread, shown]
  case valid => exact Config.validate_ok_iff.mpr (by simpa using hsecs)
  case inForce => exact hinForce
  case again =>
    intro env' cu hproject huser
    obtain ⟨hexit, hprinted'⟩ := run_config (hinForce env' cu hproject huser)
    refine ⟨hexit, ?_⟩
    rw [hprinted, hprinted']
    exact take_effectiveRows rfl rfl _ _

/-- A user's file leaves the policy open, and there is no project. -/
def halfOpen : Environment where
  home := some "/home/user"
  directory := "/work"
  user := .file "[refresh]\ninterval_secs = 30\n".toUTF8
  project := .missing
  now := ⟨0⟩
  time := "12:00:00"

theorem printed_config_read_back_halfOpen :
    (run halfOpen (.config false)).stdout =
        "[refresh]\ninterval_secs = 30\nbroadcast_policy = \"isolate\"\n\n" ++
          "# user config: /home/user/.pagepulse/config.toml\n" ∧
      ∀ path, ConfigFile.load ⟨path, .file (run halfOpen (.config false)).stdout.toUTF8⟩ =
        .ok ⟨some 30, some .isolate⟩ := by
  have huser : ComesTo halfOpen.userFile (.ok ⟨some 30, none⟩) :=
    .config _ (fromUTF8?_toUTF8 _) (by decide +kernel)
  have hconfig : halfOpen.config.1 = .ok ⟨some 30, none⟩ :=
    loadHierarchy_of_comesTo huser (.missing _)
  have hhome : ∀ home ∈ halfOpen.home, ∀ c ∈ home.toList, 0x20 ≤ c.toNat ∧ c.toNat ≠ 0x7F := by
    simp [halfOpen]
  obtain ⟨hexit, hprinted⟩ := run_config hconfig
  obtain ⟨c, hc, hreads⟩ := printed_config_read_back hexit hhome
  obtain rfl : _ = c := Except.ok.inj (hconfig.symm.trans hc)
  refine ⟨?_, hreads.load⟩
  rw [Output.stdout, hprinted]
  decide +kernel

end PageRefresh.CommandLine
