import LocalizationScan.Config.Basic
import LocalizationScan.Json.Reading

namespace LocalizationScan

/-!
# Reading a configuration

A configuration is a JSON object with a member per setting; members of other
names are passed over, and settings without a member keep their default.  An
array holds the settings in their order instead, and may end early.
-/

open Json (Failure Token Reading)

/-- Read the value of a setting into a configuration. -/
def Setting.read (setting : Setting) (config : Config) (tokens : List Token) : Reading Config :=
  match setting with
  | .ignores =>
      (Json.readTexts tokens).mapValue fun value => { config with ignores := value }
  | .includes =>
      (Json.readTexts tokens).mapValue fun value => { config with includes := value }
  | .sourceRoot =>
      (Json.readText tokens).mapValue fun value => { config with sourceRoot := value }
  | .rootNamespace =>
      (Json.readText tokens).mapValue fun value => { config with rootNamespace := value }
  | .noLocalizeComment =>
      (Json.readText tokens).mapValue fun value => { config with noLocalizeComment := value }
  | .generatedFilePatterns =>
      (Json.readTexts tokens).mapValue fun value => { config with generatedFilePatterns := value }
  | .ignoreGeneratedFiles =>
      (Json.readBoolean tokens).mapValue fun value => { config with ignoreGeneratedFiles := value }
  | .ignoreTexts =>
      (Json.readTexts tokens).mapValue fun value => { config with ignoreTexts := value }

theorem Setting.length_read_lt
    {setting : Setting}
    {config result : Config}
    {tokens rest : List Token}
    (read : setting.read config tokens = .ok (result, rest)) :
    rest.length < tokens.length := by
  unfold Setting.read at read
  split at read
  all_goals
    obtain ⟨value, inner⟩ := Json.eq_ok_of_mapValue read
    first
    | exact Json.length_readTexts_lt inner
    | exact Json.length_readText_lt inner
    | exact Json.length_readBoolean_lt inner

/-- What is known while the members of a configuration are read. -/
structure Members where
  config : Config
  /-- The settings that have had their member. -/
  seen : List Setting

namespace Members

/-- Read the value of a member by its name; a setting must not have two members. -/
def readValue (members : Members) (name : Text) (tokens : List Token) : Reading Members :=
  match Setting.ofName? name with
  | some setting =>
      if setting ∈ members.seen then
        .error .mismatched
      else
        match tokens with
        | .colon :: rest =>
            (setting.read members.config rest).mapValue fun config =>
              ⟨config, setting :: members.seen⟩
        | tokens => .error (Json.misplaced tokens)
  | none =>
      match tokens with
      | .colon :: rest => (Json.skipValue rest).map fun rest => (members, rest)
      | tokens => .error (Json.misplaced tokens)

theorem length_readValue_lt
    {members result : Members}
    {name : Text}
    {tokens rest : List Token}
    (read : members.readValue name tokens = .ok (result, rest)) :
    rest.length < tokens.length := by
  unfold readValue at read
  split at read
  · split at read
    · simp at read
    · split at read
      · obtain ⟨config, inner⟩ := Json.eq_ok_of_mapValue read
        have := Setting.length_read_lt inner
        simp only [List.length_cons]
        omega
      · simp at read
  · split at read
    · rename_i later
      cases skipped : Json.skipValue later with
      | error failure => simp [skipped, Except.map] at read
      | ok left =>
          simp only [skipped, Except.map, Except.ok.injEq, Prod.mk.injEq] at read
          have := Json.length_skip_le skipped
          simp only [List.length_cons, ← read.2]
          omega
    · simp at read

/-- Read the members of an object from the name of one on. -/
def read (members : Members) : List Token → Reading Members
  | .string (.ok name) :: tokens =>
      match _ : members.readValue name tokens with
      | .ok (members, .comma :: rest) => members.read rest
      | .ok (members, .closeObject :: rest) => .ok (members, rest)
      | .ok (_, rest) => .error (Json.misplaced rest)
      | .error failure => .error failure
  | .string (.error failure) :: _ => .error failure
  | .fault reason true :: _ => .error reason.needed
  | tokens => .error (Json.misplaced tokens)
termination_by tokens => tokens.length
decreasing_by
  have := length_readValue_lt ‹_›
  simp only [List.length_cons] at this ⊢
  omega

end Members

namespace Config

/-- Read the elements of an array as the given settings, each behind a comma. -/
def readElements (config : Config) : List Setting → List Token → Reading Config
  | _, .closeArray :: rest => .ok (config, rest)
  | setting :: settings, .comma :: tokens =>
      match setting.read config tokens with
      | .ok (config, rest) => config.readElements settings rest
      | .error failure => .error failure
  | _, tokens => .error (Json.misplaced tokens)

/-- Read a configuration off the start of a document. -/
def readDocument : List Token → Reading Config
  | .openObject :: .closeObject :: rest => .ok (default, rest)
  | .openObject :: rest => (Members.read ⟨default, []⟩ rest).mapValue Members.config
  | .openArray :: .closeArray :: rest => .ok (default, rest)
  | .openArray :: rest => default.readElements Setting.all (.comma :: rest)
  | tokens => .error (Json.refuse tokens)

/-- The configuration that a text writes; nothing may follow it. -/
def ofText (text : Text) : Except Failure Config := do
  match ← readDocument (Json.tokens text) with
  | (config, []) => return config
  | (_, _ :: _) => throw .malformed

end Config

end LocalizationScan
