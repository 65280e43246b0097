import Mathlib.Data.List.Basic
import PageRefresh.Config.Json
import PageRefresh.Proofs.Broadcast.Policy
import PageRefresh.Proofs.Json.Printed

/-!
Configurations as JSON texts.

Many texts say the same configuration: fields may stand in any place, be null or be missing, and
members of other names may stand between them.  `Config.SaidBy` says which values are accepted and
what they say, and `Config.ofJson?_eq_some_iff` that this is what is read.  What is written is one
of the accepted texts (`Config.readJson_writeJson`).  It leaves out what is not set, and is the same
for all texts that say the same, so it is their normal form.
-/

namespace PageRefresh

/-! ## Fields of an object -/

namespace Json

variable {α : Type} {decode : Json → Option α} {means : Json → α → Prop} {default x : α}
  {name : String} {value : Json} {members : List (Option String × Json)}

/-- The object has this value under this name, in whatever place, and no other under it. -/
def Once (name : String) (value : Json) (members : List (Option String × Json)) : Prop :=
  ∃ before after, members = before ++ (some name, value) :: after ∧
    ∀ m ∈ before ++ after, m.1 ≠ some name

/-- What an object says of a field, which has a default if it is missing. -/
inductive Field (means : Json → α → Prop) (default : α) (name : String)
    (members : List (Option String × Json)) : α → Prop where
  | missing (hmissing : ∀ m ∈ members, m.1 ≠ some name) : Field means default name members default
  | present {value : Json} {x : α} (honce : Once name value members) (hmeans : means value x) :
      Field means default name members x

theorem valuesOf_eq_nil_iff : valuesOf name members = [] ↔ ∀ m ∈ members, m.1 ≠ some name := by
  simp [valuesOf, List.filterMap_eq_nil_iff]

theorem valuesOf_eq_singleton_iff : valuesOf name members = [value] ↔ Once name value members := by
  rw [valuesOf, List.filterMap_eq_cons_iff]
  constructor
  · rintro ⟨before, ⟨n, v⟩, after, rfl, hbefore, hvalue, hafter⟩
    obtain ⟨rfl, rfl⟩ : n = some name ∧ v = value := by simpa using hvalue
    refine ⟨before, after, rfl, List.forall_mem_append.mpr ⟨fun m hm => ?_, ?_⟩⟩
    · simpa using hbefore m hm
    · exact valuesOf_eq_nil_iff.mp hafter
  · rintro ⟨before, after, rfl, hothers⟩
    obtain ⟨hbefore, hafter⟩ := List.forall_mem_append.mp hothers
    refine ⟨before, _, after, rfl, fun m hm => if_neg (hbefore m hm), if_pos rfl, ?_⟩
    exact valuesOf_eq_nil_iff.mpr hafter

theorem fieldOf_eq_some_iff (hdecode : ∀ value x, decode value = some x ↔ means value x) :
    fieldOf default decode name members = some x ↔ Field means default name members x := by
  rw [fieldOf]
  constructor
  · intro hfield
    split at hfield
    · rename_i hvalues
      obtain rfl := Option.some.inj hfield
      exact .missing (valuesOf_eq_nil_iff.mp hvalues)
    · rename_i hvalues
      exact .present (valuesOf_eq_singleton_iff.mp hvalues) ((hdecode _ _).mp hfield)
    · contradiction
  · intro hfield
    cases hfield with
    | missing hmissing => rw [valuesOf_eq_nil_iff.mpr hmissing]
    | present honce hmeans =>
        rw [valuesOf_eq_singleton_iff.mpr honce]
        exact (hdecode _ _).mpr hmeans

/-- What a value says that may be null. -/
inductive Says (decode : Json → Option α) : Json → Option α → Prop where
  | null : Says decode .null none
  | value {value : Json} {x : α} (hvalue : value ≠ .null) (hdecode : decode value = some x) :
      Says decode value (some x)

theorem nullable_eq_some_iff (value : Json) (o : Option α) :
    nullable decode value = some o ↔ Says decode value o := by
  constructor
  · intro hread
    unfold nullable at hread
    split at hread
    · obtain rfl := Option.some.inj hread
      exact .null
    · rename_i hvalue
      obtain ⟨x, hdecode, rfl⟩ := Option.map_eq_some_iff.mp hread
      exact .value hvalue hdecode
  · intro hsays
    cases hsays with
    | null => rfl
    | value hvalue hdecode =>
        rw [nullable, hdecode]
        · rfl
        · exact hvalue

theorem named_iff : named members = true ↔ ∀ m ∈ members, m.1 ≠ none := by
  simp [named, Option.isSome_iff_ne_none]

end Json

/-! ## What is accepted -/

namespace Config

open Json (Field Says)

variable {c : Config} {j : Json} {text : String}

/-- What a section `refresh` says: an object with its fields, or an array of them in order. -/
inductive SaidBySection (c : Config) : Json → Prop where
  | object {members : List (Option String × Json)} (hnames : ∀ m ∈ members, m.1 ≠ none)
      (hinterval : Field (Says Json.word?) none "interval_secs" members c.intervalSecs)
      (hpolicy : Field (Says BroadcastPolicy.ofJson?) none "broadcast_policy" members c.policy) :
      SaidBySection c (.object members)
  | nothing (hc : c = empty) : SaidBySection c (.array [])
  | interval {value : Json} (hinterval : Says Json.word? value c.intervalSecs)
      (hpolicy : c.policy = none) : SaidBySection c (.array [value])
  | both {value value' : Json} (hinterval : Says Json.word? value c.intervalSecs)
      (hpolicy : Says BroadcastPolicy.ofJson? value' c.policy) :
      SaidBySection c (.array [value, value'])

/-- What a value says as a configuration: an object with the section, or an array of it alone. -/
inductive SaidBy (c : Config) : Json → Prop where
  | object {members : List (Option String × Json)} (hnames : ∀ m ∈ members, m.1 ≠ none)
      (hsection : Field (fun value c => SaidBySection c value) empty "refresh" members c) :
      SaidBy c (.object members)
  | nothing (hc : c = empty) : SaidBy c (.array [])
  | refresh {value : Json} (hsection : SaidBySection c value) : SaidBy c (.array [value])

theorem ofFields?_eq_some_iff {interval : Option (Option UInt64)}
    {policy : Option (Option BroadcastPolicy)} :
    ofFields? interval policy = some c ↔
      interval = some c.intervalSecs ∧ policy = some c.policy := by
  rcases c with ⟨intervalSecs, policy'⟩
  cases interval <;> cases policy <;> simp [ofFields?]

theorem ofSection?_eq_some_iff (j : Json) (c : Config) :
    ofSection? j = some c ↔ SaidBySection c j := by
  constructor
  · intro hread
    unfold ofSection? at hread
    split at hread
    · split at hread
      · rename_i hnames
        obtain ⟨hinterval, hpolicy⟩ := ofFields?_eq_some_iff.mp hread
        exact .object (Json.named_iff.mp hnames)
          ((Json.fieldOf_eq_some_iff Json.nullable_eq_some_iff).mp hinterval)
          ((Json.fieldOf_eq_some_iff Json.nullable_eq_some_iff).mp hpolicy)
      · contradiction
    · exact .nothing (Option.some.inj hread).symm
    · obtain ⟨hinterval, hpolicy⟩ := ofFields?_eq_some_iff.mp hread
      exact .interval ((Json.nullable_eq_some_iff _ _).mp hinterval) (Option.some.inj hpolicy).symm
    · obtain ⟨hinterval, hpolicy⟩ := ofFields?_eq_some_iff.mp hread
      exact .both ((Json.nullable_eq_some_iff _ _).mp hinterval)
        ((Json.nullable_eq_some_iff _ _).mp hpolicy)
    · contradiction
  · intro hsaid
    cases hsaid with
    | object hnames hinterval hpolicy =>
        rw [ofSection?, if_pos (Json.named_iff.mpr hnames), ofFields?_eq_some_iff]
        exact ⟨(Json.fieldOf_eq_some_iff Json.nullable_eq_some_iff).mpr hinterval,
          (Json.fieldOf_eq_some_iff Json.nullable_eq_some_iff).mpr hpolicy⟩
    | nothing hc => rw [ofSection?, hc]
    | interval hinterval hpolicy =>
        rw [ofSection?, ofFields?_eq_some_iff, hpolicy]
        exact ⟨(Json.nullable_eq_some_iff _ _).mpr hinterval, rfl⟩
    | both hinterval hpolicy =>
        rw [ofSection?, ofFields?_eq_some_iff]
        exact ⟨(Json.nullable_eq_some_iff _ _).mpr hinterval,
          (Json.nullable_eq_some_iff _ _).mpr hpolicy⟩

theorem ofJson?_eq_some_iff : ofJson? j = some c ↔ c.SaidBy j := by
  constructor
  · intro hread
    unfold ofJson? at hread
    split at hread
    · split at hread
      · rename_i hnames
        exact .object (Json.named_iff.mp hnames)
          ((Json.fieldOf_eq_some_iff ofSection?_eq_some_iff).mp hread)
      · contradiction
    · exact .nothing (Option.some.inj hread).symm
    · exact .refresh ((ofSection?_eq_some_iff _ _).mp hread)
    · contradiction
  · intro hsaid
    cases hsaid with
    | object hnames hsection =>
        rw [ofJson?, if_pos (Json.named_iff.mpr hnames)]
        exact (Json.fieldOf_eq_some_iff ofSection?_eq_some_iff).mpr hsection
    | nothing hc => rw [ofJson?, hc]
    | refresh hsection =>
        rw [ofJson?]
        exact (ofSection?_eq_some_iff _ _).mpr hsection

/-! ## What is written -/

/-- The configuration that a JSON text says, if the text is accepted as one. -/
def readJson (text : String) : Option Config :=
  (Json.read text).bind ofJson?

/-- A configuration as a JSON text. -/
def writeJson (c : Config) : String :=
  c.toJson.print

theorem sectionJson_integral (c : Config) : c.sectionJson.Integral := by
  refine .ofMembers fun m hm => ?_
  rcases List.mem_append.mp hm with hinterval | hpolicy
  · obtain ⟨secs, -, rfl⟩ := Option.map_eq_some_iff.mp (Option.mem_toList.mp hinterval)
    exact .nat _
  · obtain ⟨policy, -, rfl⟩ := Option.map_eq_some_iff.mp (Option.mem_toList.mp hpolicy)
    exact .string _

theorem toJson_integral (c : Config) : c.toJson.Integral :=
  .ofMembers (List.forall_mem_singleton.mpr c.sectionJson_integral)

theorem word?_toNat (secs : UInt64) : Json.word? (.nat secs.toNat) = some secs := by
  rw [Json.word?, if_pos secs.toNat_lt_size, UInt64.ofNat_toNat]

theorem ofSection?_sectionJson (c : Config) : ofSection? c.sectionJson = some c := by
  rcases c with ⟨interval, policy⟩
  have hinterval : ∀ secs : UInt64, Json.nullable Json.word? (.nat secs.toNat) = some (some secs) :=
    fun secs => congrArg (Option.map some) (word?_toNat secs)
  have hpolicy : ∀ policy : BroadcastPolicy,
      Json.nullable BroadcastPolicy.ofJson? (.text policy.name) = some (some policy) :=
    fun policy => congrArg (Option.map some) policy.ofJson?_name
  cases interval <;> cases policy <;>
    simp [sectionJson, Json.ofMembers, ofSection?, Json.named, Json.fieldOf, Json.valuesOf,
      ofFields?, hinterval, hpolicy]

theorem ofJson?_toJson (c : Config) : ofJson? c.toJson = some c :=
  ofSection?_sectionJson c

theorem readJson_eq_some_iff :
    readJson text = some c ↔ ∃ j, Json.read text = some j ∧ c.SaidBy j := by
  simp [readJson, Option.bind_eq_some_iff, ofJson?_eq_some_iff]

theorem read_writeJson (c : Config) : Json.read c.writeJson = some c.toJson :=
  Json.read_print c.toJson_integral

theorem readJson_writeJson (c : Config) : readJson c.writeJson = some c := by
  rw [readJson, read_writeJson, Option.bind_some, ofJson?_toJson]

theorem writeJson_inj {c c' : Config} : c.writeJson = c'.writeJson ↔ c = c' := by
  constructor
  · intro heq
    have hread := readJson_writeJson c
    rw [heq, readJson_writeJson c'] at hread
    exact (Option.some.inj hread).symm
  · rintro rfl
    rfl

/-- What is not set is left out, and nothing is null. -/
theorem exists_members (c : Config) :
    ∃ members, c.toJson = .object [(some "refresh", .object members)] ∧
      (∀ m ∈ members, m.2 ≠ .null) ∧
      ∀ name, (∃ value, (name, value) ∈ members) ↔
        (name = some "interval_secs" ∧ c.intervalSecs ≠ none) ∨
          (name = some "broadcast_policy" ∧ c.policy ≠ none) := by
  rcases c with ⟨interval, policy⟩
  refine ⟨_, rfl, ?_, fun name => ?_⟩
  · cases interval <;> cases policy <;> simp [Json.text]
  · cases interval <;> cases policy <;> simp [exists_or]

/-- What is written of a configuration. -/
structure WrittenInFull (c : Config) : Prop where
  /-- It is read back, ... -/
  read : readJson c.writeJson = some c
  /-- ... and so is any other layout of the same members. -/
  layout : ∀ text, Json.read text = some c.toJson → readJson text = some c
  /-- It has what is set, and nothing else. -/
  members : ∃ members, Json.read c.writeJson = some (.object [(some "refresh", .object members)]) ∧
    (∀ m ∈ members, m.2 ≠ .null) ∧
    ∀ name, (∃ value, (name, value) ∈ members) ↔
      (name = some "interval_secs" ∧ c.intervalSecs ≠ none) ∨
        (name = some "broadcast_policy" ∧ c.policy ≠ none)

/-- What is written of a configuration that was read stands for all texts that it is read from. -/
structure Normal (c : Config) : Prop where
  /-- Read again, it says the same. -/
  again : ∀ c', readJson c.writeJson = some c' →
    c' = c ∧ c'.validate = c.validate ∧ c'.effectiveInterval = c.effectiveInterval ∧
      c'.effectivePolicy = c.effectivePolicy ∧
      ∀ other, c'.merge other = c.merge other ∧ other.merge c' = other.merge c
  /-- Two texts say the same if and only if they are written as the same text. -/
  unique : ∀ text c', readJson text = some c' → (c = c' ↔ c.writeJson = c'.writeJson)

theorem writtenInFull (c : Config) : c.WrittenInFull := by
  obtain ⟨members, hmembers, hset⟩ := c.exists_members
  refine ⟨readJson_writeJson c, fun text hread => ?_, members, hmembers ▸ read_writeJson c, hset⟩
  rw [readJson, hread, Option.bind_some, ofJson?_toJson]

/-- What is written is the normal form of the texts that are read: it says the same as any of them,
and two of them say the same exactly if they have it in common. -/
theorem json_normal_form :
    (∀ c : Config, c.WrittenInFull) ∧
      (∀ text c, readJson text = some c ↔ ∃ j, Json.read text = some j ∧ c.SaidBy j) ∧
      ∀ text c, readJson text = some c → c.Normal := by
  refine ⟨writtenInFull, fun _ _ => readJson_eq_some_iff, fun text c _ =>
    ⟨fun c' hread => ?_, fun _ _ _ => writeJson_inj.symm⟩⟩
  rw [readJson_writeJson] at hread
  obtain rfl := Option.some.inj hread
  exact ⟨rfl, rfl, rfl, rfl, fun other => ⟨rfl, rfl⟩⟩

/-- The longest interval there is, which no configuration in force may have. -/
def longest : Config :=
  ⟨some 18446744073709551615, none⟩

/-- A text with members of other names, fields out of order and a field that is null. -/
def reversed : String :=
  "\x7b\"x\": [], \"refresh\": \x7b\"broadcast_policy\": null, \"\": \x7b\x7d,\n" ++
    " \"interval_secs\": 18446744073709551615\x7d, \"x\": -1e9\x7d"

theorem json_normal_form_reversed :
    readJson reversed = some longest ∧ readJson "[[null, \"abort\"]]" = some ⟨none, some .abort⟩ ∧
      longest.writeJson ≠ writeJson ⟨none, some .abort⟩ ∧
      ∀ c', readJson longest.writeJson = some c' →
        c'.validate = .error (.invalid (.intervalTooLong 18446744073709551615)) := by
  have hreversed : readJson reversed = some longest := by decide +kernel
  have hlisted : readJson "[[null, \"abort\"]]" = some ⟨none, some .abort⟩ := by decide +kernel
  have hnormal := json_normal_form.2.2 reversed longest hreversed
  refine ⟨hreversed, hlisted, fun heq => ?_, fun c' hread => ?_⟩
  · have hconfig := (hnormal.unique _ _ hlisted).mpr heq
    simp [longest] at hconfig
  · obtain ⟨-, hvalidate, -⟩ := hnormal.again c' hread
    rw [hvalidate]
    simp [longest, validate, maxIntervalSecs]

end Config

end PageRefresh
