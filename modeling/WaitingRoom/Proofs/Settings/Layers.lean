import Mathlib.Tactic.Common
import WaitingRoom.Proofs.Json.Members
import WaitingRoom.Settings.Load

/-!
# Layers of a configuration

A configuration is what it says in each of its seventeen fields. Layers are merged field by field,
and each field of a configuration that is loaded has the value of the topmost layer that has one:
the command line, the file, the defaults. What a file says of a field is what its member of that
name says; what to migrate to is no field of a file.
-/

namespace WaitingRoom.Config

open Json (Value Decoded HasJust Lacks Settle)

/-- The fields of a configuration. -/
inductive Field
  | configPath
  | migrate
  | apiPort
  | dbImpl
  | mongoUrl
  | mongoTable
  | mongoDeviceCollection
  | postgresConnStr
  | deviceManagerUrl
  | jwtPubRsaKey
  | deleteAfterUseWaitDuration
  | wsPingPeriod
  | debug
  | logLevel
  | logDir
  | logJson
  | shutdownGraceSeconds
  deriving DecidableEq

namespace Field

/-- What a field holds. -/
def Content : Field → Type
  | apiPort | shutdownGraceSeconds => Nat
  | debug | logJson => Bool
  | _ => String

/-- The value of a field. -/
def get : (f : Field) → Config → Option f.Content
  | configPath, c => c.configPath
  | migrate, c => c.migrate
  | apiPort, c => c.apiPort
  | dbImpl, c => c.dbImpl
  | mongoUrl, c => c.mongoUrl
  | mongoTable, c => c.mongoTable
  | mongoDeviceCollection, c => c.mongoDeviceCollection
  | postgresConnStr, c => c.postgresConnStr
  | deviceManagerUrl, c => c.deviceManagerUrl
  | jwtPubRsaKey, c => c.jwtPubRsaKey
  | deleteAfterUseWaitDuration, c => c.deleteAfterUseWaitDuration
  | wsPingPeriod, c => c.wsPingPeriod
  | debug, c => c.debug
  | logLevel, c => c.logLevel
  | logDir, c => c.logDir
  | logJson, c => c.logJson
  | shutdownGraceSeconds, c => c.shutdownGraceSeconds

/-- The configuration with another value of a field. -/
def put : (f : Field) → Config → Option f.Content → Config
  | configPath, c, x => { c with configPath := x }
  | migrate, c, x => { c with migrate := x }
  | apiPort, c, x => { c with apiPort := x }
  | dbImpl, c, x => { c with dbImpl := x }
  | mongoUrl, c, x => { c with mongoUrl := x }
  | mongoTable, c, x => { c with mongoTable := x }
  | mongoDeviceCollection, c, x => { c with mongoDeviceCollection := x }
  | postgresConnStr, c, x => { c with postgresConnStr := x }
  | deviceManagerUrl, c, x => { c with deviceManagerUrl := x }
  | jwtPubRsaKey, c, x => { c with jwtPubRsaKey := x }
  | deleteAfterUseWaitDuration, c, x => { c with deleteAfterUseWaitDuration := x }
  | wsPingPeriod, c, x => { c with wsPingPeriod := x }
  | debug, c, x => { c with debug := x }
  | logLevel, c, x => { c with logLevel := x }
  | logDir, c, x => { c with logDir := x }
  | logJson, c, x => { c with logJson := x }
  | shutdownGraceSeconds, c, x => { c with shutdownGraceSeconds := x }

/-- The name of a field. -/
def name : Field → String
  | configPath => "config_path"
  | migrate => "migrate"
  | apiPort => "api_port"
  | dbImpl => "db_impl"
  | mongoUrl => "mongo_url"
  | mongoTable => "mongo_table"
  | mongoDeviceCollection => "mongo_device_collection"
  | postgresConnStr => "postgres_conn_str"
  | deviceManagerUrl => "device_manager_url"
  | jwtPubRsaKey => "jwt_pub_rsa_key"
  | deleteAfterUseWaitDuration => "delete_after_use_wait_duration"
  | wsPingPeriod => "ws_ping_period"
  | debug => "debug"
  | logLevel => "log_level"
  | logDir => "log_dir"
  | logJson => "log_json"
  | shutdownGraceSeconds => "shutdown_grace_seconds"

/-- Reads the content of a field. -/
def read : (f : Field) → Value → Decoded f.Content
  | apiPort => Value.asNat 16
  | shutdownGraceSeconds => Value.asNat 64
  | debug | logJson => Value.asTruth
  | configPath | migrate | dbImpl | mongoUrl | mongoTable | mongoDeviceCollection
  | postgresConnStr | deviceManagerUrl | jwtPubRsaKey | deleteAfterUseWaitDuration
  | wsPingPeriod | logLevel | logDir => Value.asText

/-- The fields of a file in their order. -/
def inFile : List Field :=
  [configPath, apiPort, dbImpl, mongoUrl, mongoTable, mongoDeviceCollection, postgresConnStr,
   deviceManagerUrl, jwtPubRsaKey, deleteAfterUseWaitDuration, wsPingPeriod, debug, logLevel,
   logDir, logJson, shutdownGraceSeconds]

/-- The place of a field in a file that gives its fields in order. -/
def place (f : Field) : Nat := inFile.idxOf f

/-- A field as it is read from a file. -/
def member (f : Field) : Json.Member Config := field f.name f.read f.put

variable (f : Field)

/-! ## The fields are independent -/

@[simp] theorem get_put (c : Config) (x : Option f.Content) : f.get (f.put c x) = x := by
  cases f <;> rfl

/-- A field keeps its value when another one is put in. -/
theorem get_put_of_ne {f g : Field} (h : f ≠ g) (c : Config) (x : Option f.Content) :
    g.get (f.put c x) = g.get c := by
  cases f <;> cases g <;> first | exact absurd rfl h | rfl

/-- Two configurations that say the same in every field are the same. -/
theorem ext {a b : Config} (h : ∀ f : Field, f.get a = f.get b) : a = b := by
  cases a
  cases b
  congr 1
  exacts [h configPath, h migrate, h apiPort, h dbImpl, h mongoUrl, h mongoTable,
    h mongoDeviceCollection, h postgresConnStr, h deviceManagerUrl, h jwtPubRsaKey,
    h deleteAfterUseWaitDuration, h wsPingPeriod, h debug, h logLevel, h logDir, h logJson,
    h shutdownGraceSeconds]

@[simp] theorem get_empty : f.get empty = none := by
  cases f <;> rfl

/-- A field of merged layers has the value of the upper one, if that has one. -/
@[simp] theorem get_merge (lower upper : Config) :
    f.get (lower.merge upper) = (f.get upper).or (f.get lower) := by
  cases f <;> rfl

end Field

/-! ## Merging -/

theorem merge_assoc (a b c : Config) : (a.merge b).merge c = a.merge (b.merge c) := by
  apply Field.ext
  intro f
  simp only [Field.get_merge, Option.or_assoc]

theorem merge_empty (c : Config) : c.merge empty = c := by
  apply Field.ext
  intro f
  rw [Field.get_merge, Field.get_empty, Option.none_or]

theorem empty_merge (c : Config) : empty.merge c = c := by
  apply Field.ext
  intro f
  rw [Field.get_merge, Field.get_empty, Option.or_none]

theorem merge_self (c : Config) : c.merge c = c := by
  apply Field.ext
  intro f
  rw [Field.get_merge, Option.or_self]

/-! ## What a file says -/

/-- The fields that are read are those of a file. -/
theorem fields_eq : fields = Field.inFile.map Field.member := rfl

namespace Field

/-- A field that is read from a file leaves the others as they are. -/
theorem member_keeps {f g : Field} (h : f ≠ g) : f.member.Keeps g.get :=
  .of fun c x => get_put_of_ne h c x

/-- The fields of a file are told apart by their names. -/
theorem find?_member {f : Field} (h : f ∈ inFile) :
    fields.find? (fun m => m.name == f.name) = some f.member := by
  have hnames : ∀ f ∈ inFile, inFile.find? (fun g => g.name == f.name) = some f := by decide
  rw [fields_eq, List.find?_map]
  exact congrArg (Option.map member) (hnames f h)

/-- A field of a file stands in its place, and nowhere behind it. -/
theorem inFile_split {f : Field} (h : f ∈ inFile) :
    inFile = inFile.take f.place ++ f :: inFile.drop (f.place + 1) ∧
      (inFile.take f.place).length = f.place ∧ f ∉ inFile.drop (f.place + 1) := by
  revert f
  decide

/-- What the value of a file says of a field, which may be nothing: in a record, what the one member
of that name says, and in a list, what stands in the field's place. -/
inductive Says (f : Field) : Value → Option f.Content → Prop
  | member {members : List (Value × Value)} {v : Value} {x : Option f.Content}
      (hname : HasJust members f.name v) (hread : v.asOption f.read = .ok x) :
      Says f (.record members) x
  | silent {members : List (Value × Value)} (hname : Lacks members f.name) :
      Says f (.record members) none
  | place {items : List Value} {v : Value} {x : Option f.Content}
      (hplace : items[f.place]? = some v) (hread : v.asOption f.read = .ok x) :
      Says f (.list items) x

/-- A configuration that is read from a value has in each field of a file what the value says. -/
theorem says_of_asRecord {f : Field} (hf : f ∈ inFile) {v : Value} {c : Config}
    (h : v.asRecord {} fields = .ok c) : f.Says v (f.get c) := by
  have hnone : f.get {} = none := f.get_empty
  cases v with
  | record members =>
    have hothers : ∀ m ∈ fields, m.name ≠ f.name → m.Keeps f.get := by
      intro m hm hne
      obtain ⟨g, -, rfl⟩ := List.mem_map.mp (fields_eq ▸ hm)
      apply member_keeps
      rintro rfl
      exact hne rfl
    have hsettle := Json.settle_of_readMembers (find?_member hf) f.get_put hothers h
    rcases hsettle.read rfl with ⟨w, hjust, hread⟩ | ⟨-, hsame, hlacks⟩
    · exact .member hjust hread
    · rw [hsame, hnone]
      exact .silent hlacks
  | list items =>
    obtain ⟨hsplit, hplace, hbehind⟩ := inFile_split hf
    have hfields : fields = (inFile.take f.place).map Field.member ++
        f.member :: (inFile.drop (f.place + 1)).map Field.member := by
      rw [fields_eq, ← List.map_cons, ← List.map_append, ← hsplit]
    have hafter : ∀ m ∈ (inFile.drop (f.place + 1)).map Field.member, m.Keeps f.get := by
      intro m hm
      obtain ⟨g, hg, rfl⟩ := List.mem_map.mp hm
      apply member_keeps
      rintro rfl
      exact hbehind hg
    change Json.Member.readPositions {} fields items = .ok c at h
    rw [hfields] at h
    obtain ⟨w, hw, hread⟩ := Json.exists_of_readPositions (by decide) f.get_put hafter h
    rw [List.length_map, hplace] at hw
    exact .place hw hread
  | null | truth | number | text | broken => cases h

/-- All fields but what to migrate to are fields of a file. -/
theorem mem_inFile_iff {f : Field} : f ∈ inFile ↔ f ≠ migrate := by
  cases f <;> decide

end Field

/-- What to migrate to is not read from a value. -/
theorem migrate_of_asRecord {v : Value} {c : Config} (h : v.asRecord {} fields = .ok c) :
    c.migrate = none := by
  have hkeeps : ∀ m ∈ fields, m.Keeps Field.migrate.get := by
    intro m hm
    obtain ⟨g, hg, rfl⟩ := List.mem_map.mp (fields_eq ▸ hm)
    apply Field.member_keeps
    rintro rfl
    exact absurd hg (by decide)
  cases v with
  | record members => exact Json.get_of_readMembers hkeeps h
  | list items => exact Json.get_of_readPositions hkeeps h
  | null | truth | number | text | broken => cases h

/-! ## Loading -/

/-- The path of the file that is read: the command line decides. -/
def filePath (commandLine : Config) : String := commandLine.configPath.getD defaultPath

variable {folder folder' : Folder} {commandLine : Config}

/-- What is loaded is a file, if there is one, over the defaults and below the command line. -/
theorem load_eq (folder : Folder) (commandLine : Config) :
    load folder commandLine = readFile folder (filePath commandLine) >>= fun file =>
      .ok ((defaults.merge (file.getD empty)).merge commandLine) := rfl

/-- What is loaded comes of what is found at the path, and of nothing else in the folder. -/
theorem load_congr (h : folder.find (filePath commandLine) = folder'.find (filePath commandLine)) :
    load folder commandLine = load folder' commandLine := by
  have hfile : readFile folder (filePath commandLine) =
      readFile folder' (filePath commandLine) := by
    rw [readFile, readFile, h]
  rw [load_eq, load_eq, hfile]

/-- Where no file is found, the command line is laid over the defaults. -/
theorem load_of_nothing (h : folder.find (filePath commandLine) = .nothing) :
    load folder commandLine = .ok ((defaults.merge empty).merge commandLine) := by
  have hfile : readFile folder (filePath commandLine) = .ok none := by
    rw [readFile, h]
  rw [load_eq, hfile, ok_bind, Option.getD_none]

/-- A file that is found is laid between the two. -/
theorem load_of_file {text : String} {file : Config}
    (h : folder.find (filePath commandLine) = .file text) (hparse : parse text = .ok file) :
    load folder commandLine = .ok ((defaults.merge file).merge commandLine) := by
  have hfile : readFile folder (filePath commandLine) = .ok (some file) := by
    rw [readFile, h]
    simp only [hparse]
  rw [load_eq, hfile, ok_bind, Option.getD_some]

/-- A file that is found and makes no sense is not passed over. -/
theorem load_of_malformed {text : String} {fault : Json.Fault}
    (h : folder.find (filePath commandLine) = .file text) (hparse : parse text = .error fault) :
    load folder commandLine = .error (.malformed (filePath commandLine)) := by
  have hfile : readFile folder (filePath commandLine) =
      .error (.malformed (filePath commandLine)) := by
    rw [readFile, h]
    simp only [hparse]
  rw [load_eq, hfile, error_bind]

/-- Neither is a folder in the place of a file. -/
theorem load_of_folder (h : folder.find (filePath commandLine) = .folder) :
    load folder commandLine = .error (.unreadable (filePath commandLine)) := by
  have hfile : readFile folder (filePath commandLine) =
      .error (.unreadable (filePath commandLine)) := by
    rw [readFile, h]
  rw [load_eq, hfile, error_bind]

/-- **Layers win field by field.** In a configuration that is loaded each field has the value of the
command line, if it has one, else that of the file, if there is a file and it has one, else the
default, whatever the other fields are; the file has in each field what its text says, and never
says what to migrate to. Of the folder it only matters what is found at the path that the command
line names, or at the usual one; what is found there and cannot be read makes loading fail. Merging
is associative and idempotent, and the configuration that says nothing is neutral on both sides. -/
theorem layers_win_field_by_field :
    (∀ folder commandLine, folder.find (filePath commandLine) = .nothing →
      ∃ c, load folder commandLine = .ok c ∧
        ∀ f : Field, f.get c = (f.get commandLine).or (f.get defaults)) ∧
    (∀ folder commandLine text, folder.find (filePath commandLine) = .file text →
      (∀ file, parse text = .ok file →
        (∃ c, load folder commandLine = .ok c ∧
          ∀ f : Field, f.get c = (f.get commandLine).or ((f.get file).or (f.get defaults))) ∧
        file.migrate = none ∧
        ∀ f : Field, f ≠ .migrate → f.Says (Json.readText text).value (f.get file)) ∧
      ∀ fault, parse text = .error fault →
        load folder commandLine = .error (.malformed (filePath commandLine))) ∧
    (∀ folder commandLine, folder.find (filePath commandLine) = .folder →
      load folder commandLine = .error (.unreadable (filePath commandLine))) ∧
    (∀ folder folder' commandLine,
      folder.find (filePath commandLine) = folder'.find (filePath commandLine) →
      load folder commandLine = load folder' commandLine) ∧
    (∀ a b c : Config, (a.merge b).merge c = a.merge (b.merge c)) ∧
    ∀ c : Config, c.merge c = c ∧ c.merge empty = c ∧ empty.merge c = c := by
  refine ⟨fun folder commandLine h => ?_, fun folder commandLine text h => ⟨?_, ?_⟩,
    fun folder commandLine => load_of_folder, fun folder folder' commandLine => load_congr,
    merge_assoc, fun c => ⟨merge_self c, merge_empty c, empty_merge c⟩⟩
  · refine ⟨_, load_of_nothing h, fun f => ?_⟩
    rw [merge_empty, Field.get_merge]
  · intro file hparse
    have hread := Json.read_of_decodeSource hparse
    refine ⟨⟨_, load_of_file h hparse, fun f => ?_⟩, migrate_of_asRecord hread, fun f hf => ?_⟩
    · rw [Field.get_merge, Field.get_merge]
    · exact Field.says_of_asRecord (Field.mem_inFile_iff.mpr hf) hread
  · intro fault hparse
    exact load_of_malformed h hparse

/-- A file that names a port, a backend and what to migrate to. -/
def portAndBackend : String :=
  "\x7b\"api_port\": 9000, \"db_impl\": \"postgres\", \"migrate\": \"mongo\"\x7d"

/-- With that file, a command line that names another port has its own port, the backend of the
file, the default of a field that neither names, and nothing to migrate to, whatever else is in the
folder. Without a file it has the default backend; a file that is cut off and a folder in its place
are reported. -/
theorem port_is_taken_from_command_line :
    (∃ c, load [("config.json", portAndBackend)] { apiPort := some 9100 } = .ok c ∧
      c.apiPort = some 9100 ∧ c.dbImpl = some "postgres" ∧ c.wsPingPeriod = some "30s" ∧
      c.migrate = none) ∧
    load [("other.json", ""), ("config.json", portAndBackend)] { apiPort := some 9100 } =
      load [("config.json", portAndBackend)] { apiPort := some 9100 } ∧
    (∃ c, load [] { apiPort := some 9100 } = .ok c ∧ c.apiPort = some 9100 ∧
      c.dbImpl = some "mongo") ∧
    load [("config.json", "\x7b")] {} = .error (.malformed "config.json") ∧
    load [("etc/config.json", "")] { configPath := some "etc" } = .error (.unreadable "etc") := by
  have hparse : parse portAndBackend = .ok { apiPort := some 9000, dbImpl := some "postgres" } := by
    have hread : (parse portAndBackend).toOption =
        some { apiPort := some 9000, dbImpl := some "postgres" } := by
      decide +kernel
    cases h : parse portAndBackend with
    | error fault =>
      rw [h] at hread
      cases hread
    | ok file =>
      rw [h] at hread
      rw [Option.some.inj hread]
  obtain ⟨fault, hcutOff⟩ : ∃ fault, parse "\x7b" = .error fault := by
    have hread : (parse "\x7b").toOption = none := by decide +kernel
    cases h : parse "\x7b" with
    | error fault => exact ⟨fault, rfl⟩
    | ok file =>
      rw [h] at hread
      cases hread
  obtain ⟨hnothing, hfile, hfolder, hsame, -⟩ := layers_win_field_by_field
  obtain ⟨⟨c, hload, hfields⟩, -, -⟩ :=
    (hfile [("config.json", portAndBackend)] { apiPort := some 9100 } _ (by decide +kernel)).1 _
      hparse
  obtain ⟨d, hbare, hdefaults⟩ := hnothing [] { apiPort := some 9100 } (by decide +kernel)
  exact ⟨⟨c, hload, hfields .apiPort, hfields .dbImpl, hfields .wsPingPeriod, hfields .migrate⟩,
    hsame _ _ _ (by decide +kernel), ⟨d, hbare, hdefaults .apiPort, hdefaults .dbImpl⟩,
    (hfile _ _ _ (by decide +kernel)).2 fault hcutOff, hfolder _ _ (by decide +kernel)⟩

end WaitingRoom.Config
