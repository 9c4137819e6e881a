import WaitingRoom.Program
import WaitingRoom.Proofs.Time.Waits

/-!
# Which settings are accepted

Settings are made of a configuration just if it has all that is required and what it says can be
read; then they can be used. The one exception is a wait whose sum runs over.
-/

namespace WaitingRoom

open Text (AllBlank strip)
open Time (Quantity Span SpellsSpan SpellsOverrun)

namespace Backend

/-- The names of a backend. -/
def names : Backend → List String
  | mongo => ["mongo", "mongodb"]
  | postgres => ["postgres", "postgresql"]

/-- Whether a text is a name of a backend, in any case and with blanks around. -/
def IsNamed (b : Backend) (text : String) : Prop :=
  ∃ name ∈ b.names, Text.sameIgnoringAsciiCase (strip text.toList) name.toList = true

/-- A name of a backend is in lower case. -/
theorem map_toLower_of_mem {b : Backend} {name : String} (h : name ∈ b.names) :
    name.toList.map Char.toLower = name.toList := by
  revert name
  cases b <;> decide

/-- A text is a name of a backend if its letters in lower case are. -/
theorem isNamed_iff {b : Backend} {text : String} :
    b.IsNamed text ↔ Text.lowerAscii (Text.trim text) ∈ b.names := by
  have hlower (name : String) (h : name ∈ b.names) :
      Text.sameIgnoringAsciiCase (strip text.toList) name.toList = true ↔
        name = Text.lowerAscii (Text.trim text) := by
    rw [Text.sameIgnoringAsciiCase, map_toLower_of_mem h, beq_iff_eq, Text.lowerAscii,
      Text.toList_trim, eq_comm, ← String.toList_inj, String.toList_ofList]
  constructor
  · rintro ⟨name, hname, hsame⟩
    exact (hlower name hname).mp hsame ▸ hname
  · exact fun h => ⟨_, h, (hlower _ h).mpr rfl⟩

/-- A backend is read from its names, and from nothing else. -/
theorem parse_eq_ok_iff {b : Backend} {text : String} : parse text = .ok b ↔ b.IsNamed text := by
  rw [isNamed_iff, parse]
  generalize Text.lowerAscii (Text.trim text) = name
  simp only [Bool.or_eq_true, beq_iff_eq]
  split_ifs with hmongo hpostgres
  · rcases hmongo with rfl | rfl <;> cases b <;> simp [names]
  · rcases hpostgres with rfl | rfl <;> cases b <;> simp [names]
  · refine iff_of_false (fun h => nomatch h) fun h => ?_
    cases b with
    | mongo => exact hmongo (by simpa [names] using h)
    | postgres => exact hpostgres (by simpa [names] using h)

/-- No two backends share a name. -/
theorem IsNamed.unique {a b : Backend} {text : String} (ha : a.IsNamed text)
    (hb : b.IsNamed text) : a = b := by
  rw [← parse_eq_ok_iff] at ha hb
  exact Except.ok.inj (ha.symm.trans hb)

end Backend

/-- A migration to where the records are is refused, and leaves nothing behind. -/
theorem Migration.run_same (n : Network) (store : StoreSettings) (b : Backend) (j : Journal) :
    Migration.run n store b b j = (some (.error (.sameBackend b)), j) := if_pos rfl

namespace Config

theorem required_eq_ok_iff {α : Type} {value : Option α} {name : String} {a : α} :
    required value name = .ok a ↔ value = some a := by
  cases value <;> simp [required]

theorem readBackend_eq_ok_iff {name : String} {b : Backend} :
    readBackend name = .ok b ↔ b.IsNamed name := by
  rw [← Backend.parse_eq_ok_iff, readBackend]
  cases Backend.parse name <;> simp [Except.mapError]

theorem readPingPeriod_eq_ok_iff {text : String} {period : Span} :
    readPingPeriod text = .ok period ↔ Span.parse text = .ok period ∧ 0 < period.nanos := by
  unfold readPingPeriod
  rcases Span.parse text with (_ | _) | d
  · exact iff_of_false (fun h => nomatch h) fun h => nomatch h.1
  · exact iff_of_false (fun h => nomatch h) fun h => nomatch h.1
  · dsimp only
    rw [Except.ok.injEq]
    exact Span.ite_nanos_eq_iff (fun _ _ => Except.ok.inj) (by rintro _ ⟨⟩)

/-- What a configuration that is accepted is made into. -/
structure Makes (c : Config) (s : Settings) : Prop where
  backend : ∃ name, c.dbImpl = some name ∧ s.backend.IsNamed name
  migrate : c.migrate = none ∧ s.migrate = none ∨
    ∃ name b, c.migrate = some name ∧ s.migrate = some b ∧ b.IsNamed name
  wsPingPeriod : ∃ text, c.wsPingPeriod = some text ∧ Span.parse text = .ok s.wsPingPeriod ∧
    0 < s.wsPingPeriod.nanos
  apiPort : c.apiPort = some s.apiPort
  deviceManagerUrl : c.deviceManagerUrl = some s.deviceManagerUrl
  wait : readWait c.deleteAfterUseWaitDuration = .ok (s.deleteAfterUseWait, s.ignoredWait)
  jwtPubRsaKey : s.jwtPubRsaKey = c.jwtPubRsaKey.filter fun key => !Text.isAllBlank key
  store : s.store = ⟨c.mongoUrl.getD "", c.mongoTable.getD "", c.mongoDeviceCollection.getD "",
    c.postgresConnStr.getD ""⟩
  debug : s.debug = c.debug.getD false
  shutdownGraceSeconds : s.shutdownGraceSeconds = c.shutdownGraceSeconds.getD 10

variable {c : Config} {s : Settings}

theorem mapM_readBackend_eq_ok_iff {name? : Option String} {b? : Option Backend} :
    name?.mapM readBackend = .ok b? ↔ name? = none ∧ b? = none ∨
      ∃ name b, name? = some name ∧ b? = some b ∧ b.IsNamed name := by
  cases name? with
  | none =>
    rw [Option.mapM_none]
    constructor
    · rintro ⟨⟩
      exact .inl ⟨rfl, rfl⟩
    · rintro (⟨-, rfl⟩ | ⟨_, _, hname, -, -⟩)
      · rfl
      · cases hname
  | some name =>
    rw [Option.mapM_some]
    constructor
    · intro h
      cases hname : readBackend name with
      | error failure =>
        rw [hname] at h
        cases h
      | ok b =>
        rw [hname] at h
        cases h
        exact .inr ⟨name, b, rfl, rfl, readBackend_eq_ok_iff.mp hname⟩
    · rintro (⟨hnone, -⟩ | ⟨_, b, ⟨⟩, rfl, hb⟩)
      · cases hnone
      · rw [readBackend_eq_ok_iff.mpr hb]
        rfl

theorem settings_eq_ok_iff : c.settings = .ok s ↔ c.Makes s := by
  simp only [settings, bind_eq_ok_iff, required_eq_ok_iff, readBackend_eq_ok_iff,
    readPingPeriod_eq_ok_iff, mapM_readBackend_eq_ok_iff]
  constructor
  · rintro ⟨backend, hbackend, migrate, hmigrate, period, hperiod, port, hport, url, hurl,
      ⟨wait, ignored⟩, hwait, hmade⟩
    cases hmade
    exact ⟨hbackend, hmigrate, hperiod, hport, hurl, hwait, rfl, rfl, rfl, rfl⟩
  · intro h
    refine ⟨s.backend, h.backend, s.migrate, h.migrate, s.wsPingPeriod, h.wsPingPeriod, s.apiPort,
      h.apiPort, s.deviceManagerUrl, h.deviceManagerUrl, _, h.wait, ?_⟩
    rw [← h.jwtPubRsaKey, ← h.store, ← h.debug, ← h.shutdownGraceSeconds]
    rfl

/-! ## What has to be there -/

/-- Whether a configuration has all that is required and can be read: a backend, the time between
two pings, which has a length, a port and the address of the device manager. It may say what to
migrate to. -/
structure IsComplete (c : Config) : Prop where
  backend : ∃ name b, c.dbImpl = some name ∧ Backend.IsNamed b name
  migrate : ∀ name, c.migrate = some name → ∃ b, Backend.IsNamed b name
  wsPingPeriod : ∃ text qs, c.wsPingPeriod = some text ∧ SpellsSpan text.toList qs ∧
    0 < (qs.map Quantity.exact).sum
  apiPort : ∃ port, c.apiPort = some port
  deviceManagerUrl : ∃ url, c.deviceManagerUrl = some url

/-- Whether the wait of a configuration passes the last second by a carry alone. -/
def WaitRunsOver (c : Config) : Prop :=
  ∃ text, c.deleteAfterUseWaitDuration = some text ∧ SpellsOverrun (strip text.toList)

/-- Whether a configuration says of no wait that has a length: it says nothing, or its text is
blank, a lone dash, no row of quantities that can be added up, or one that comes to nothing. -/
def TurnsWaitOff (c : Config) : Prop :=
  ∀ text, c.deleteAfterUseWaitDuration = some text →
    AllBlank text.toList ∨ strip text.toList = ['-'] ∨
      ∀ qs, SpellsSpan (strip text.toList) qs → (qs.map Quantity.exact).sum = 0

/-- A wait is read unless it runs over. -/
theorem exists_readWait_iff :
    (∃ wait? ignored?, readWait c.deleteAfterUseWaitDuration = .ok (wait?, ignored?)) ↔
      ¬ c.WaitRunsOver := by
  cases htext : c.deleteAfterUseWaitDuration with
  | none =>
    refine iff_of_true ⟨none, none, rfl⟩ ?_
    rintro ⟨text, hsome, -⟩
    rw [htext] at hsome
    cases hsome
  | some text =>
    have hover : c.WaitRunsOver ↔ Span.parseWait text = .carryOverflow := by
      rw [Span.parseWait_eq_carryOverflow_iff, WaitRunsOver, htext]
      simp only [Option.some_inj, exists_eq_left']
    rw [hover, readWait]
    cases Span.parseWait text with
    | carryOverflow => exact iff_of_false (fun ⟨_, _, h⟩ => nomatch h) fun h => h rfl
    | off => exact iff_of_true ⟨none, none, rfl⟩ fun h => nomatch h
    | after wait => exact iff_of_true ⟨some wait, none, rfl⟩ fun h => nomatch h
    | refused => exact iff_of_true ⟨none, some (Text.trim text), rfl⟩ fun h => nomatch h

/-- A wait is there just if its text spells one. -/
theorem wait_of_readWait {text? : Option String} {wait? : Option Span} {ignored? : Option String}
    (h : readWait text? = .ok (wait?, ignored?)) {wait : Span} :
    wait? = some wait ↔ ∃ text, text? = some text ∧ Span.parseWait text = .after wait := by
  cases text? with
  | none =>
    cases h
    exact iff_of_false (fun h => nomatch h) fun ⟨_, h, _⟩ => nomatch h
  | some text =>
    simp only [Option.some_inj, exists_eq_left']
    rw [readWait] at h
    cases hwait : Span.parseWait text with
    | carryOverflow =>
      rw [hwait] at h
      cases h
    | off =>
      rw [hwait] at h
      cases h
      exact iff_of_false (fun h => nomatch h) fun h => nomatch h
    | refused =>
      rw [hwait] at h
      cases h
      exact iff_of_false (fun h => nomatch h) fun h => nomatch h
    | after found =>
      rw [hwait] at h
      cases h
      rw [Option.some_inj, Span.WaitSetting.after.injEq]

/-- A configuration is accepted just if it has what is required and its wait does not run over. -/
theorem exists_settings_iff : (∃ s, c.settings = .ok s) ↔ c.IsComplete ∧ ¬ c.WaitRunsOver := by
  simp only [settings_eq_ok_iff]
  constructor
  · rintro ⟨s, h⟩
    obtain ⟨name, hname, hbackend⟩ := h.backend
    obtain ⟨text, htext, hperiod, hpos⟩ := h.wsPingPeriod
    obtain ⟨qs, hqs, hexact⟩ := Span.parse_eq_ok_iff.mp hperiod
    refine ⟨⟨⟨name, s.backend, hname, hbackend⟩, fun name hname => ?_,
      ⟨text, qs, htext, hqs, by rw [← hexact]; exact Nat.cast_pos.mpr hpos⟩, ⟨_, h.apiPort⟩,
      ⟨_, h.deviceManagerUrl⟩⟩, exists_readWait_iff.mp ⟨_, _, h.wait⟩⟩
    rcases h.migrate with ⟨hnone, -⟩ | ⟨name', b, hsome, -, hb⟩
    · rw [hnone] at hname
      cases hname
    · rw [hsome] at hname
      cases hname
      exact ⟨b, hb⟩
  · rintro ⟨h, hover⟩
    obtain ⟨name, backend, hname, hbackend⟩ := h.backend
    obtain ⟨text, qs, htext, hqs, hpos⟩ := h.wsPingPeriod
    obtain ⟨port, hport⟩ := h.apiPort
    obtain ⟨url, hurl⟩ := h.deviceManagerUrl
    obtain ⟨wait?, ignored?, hwait⟩ := exists_readWait_iff.mpr hover
    have hperiod := Span.parse_of_spellsSpan hqs
    rw [← hqs.addsUp.rowLength_eq_exact, Nat.cast_pos] at hpos
    obtain ⟨migrate, hmigrate⟩ : ∃ b? : Option Backend, c.migrate = none ∧ b? = none ∨
        ∃ name b, c.migrate = some name ∧ b? = some b ∧ Backend.IsNamed b name := by
      cases htarget : c.migrate with
      | none => exact ⟨none, .inl ⟨rfl, rfl⟩⟩
      | some target =>
        obtain ⟨b, hb⟩ := h.migrate target htarget
        exact ⟨some b, .inr ⟨target, b, rfl, rfl, hb⟩⟩
    exact ⟨⟨port, backend, _, url, _, wait?, ignored?, ⟨Time.rowLength qs⟩, _, _, migrate⟩,
      ⟨name, hname, hbackend⟩, hmigrate, ⟨text, htext, hperiod, hpos⟩, hport, hurl, hwait, rfl, rfl,
      rfl, rfl⟩

/-! ## What is made of it -/

/-- What settings promise that are made of a configuration. -/
structure Delivers (c : Config) (s : Settings) : Prop where
  /-- The time between two pings has a length, which is exactly what its text spells. -/
  wsPingPeriod : ∃ text qs, c.wsPingPeriod = some text ∧ SpellsSpan text.toList qs ∧
    0 < s.wsPingPeriod.nanos ∧ (s.wsPingPeriod.nanos : ℚ) = (qs.map Quantity.exact).sum
  /-- A wait has a length, which is exactly what its text spells. -/
  wait : ∀ wait, s.deleteAfterUseWait = some wait ↔
    ∃ text qs, c.deleteAfterUseWaitDuration = some text ∧ SpellsSpan (strip text.toList) qs ∧
      0 < wait.nanos ∧ (wait.nanos : ℚ) = (qs.map Quantity.exact).sum
  /-- There is no wait where the text turns it off. -/
  noWait : c.TurnsWaitOff → s.deleteAfterUseWait = none
  /-- A key has a character that is no blank, and is the one that was configured. -/
  key : ∀ key, s.jwtPubRsaKey = some key ↔
    c.jwtPubRsaKey = some key ∧ ∃ sign ∈ key.toList, Text.isBlank sign = false
  /-- A migration to the configured backend, whatever the two are called, is refused before any
  database is connected to, and that is all the program does with such settings. -/
  migration : ∀ source target b, c.dbImpl = some source → Backend.IsNamed b source →
    Backend.IsNamed b target →
      (∃ found, Backend.parse target = .ok found ∧
        ∀ n j, Migration.run n s.store s.backend found j = (some (.error (.sameBackend b)), j)) ∧
      (c.migrate = some target → ∀ surroundings j, ∃ j',
        Program.work surroundings s j = (.unmigrated (.sameBackend b), j') ∧
          j'.commands = j.commands ∧ j'.queries = j.queries)

/-- The settings of a configuration that is accepted can be used. -/
theorem Makes.delivers (h : c.Makes s) : c.Delivers s := by
  have hwait (wait : Span) : s.deleteAfterUseWait = some wait ↔
      ∃ text qs, c.deleteAfterUseWaitDuration = some text ∧ SpellsSpan (strip text.toList) qs ∧
        0 < wait.nanos ∧ (wait.nanos : ℚ) = (qs.map Quantity.exact).sum := by
    rw [wait_of_readWait h.wait]
    simp only [Span.parseWait_eq_after_iff, exists_and_left]
  refine ⟨?_, hwait, fun hoff => ?_, fun key => ?_, fun source target b hsource hb htarget => ?_⟩
  · obtain ⟨text, htext, hperiod, hpos⟩ := h.wsPingPeriod
    obtain ⟨qs, hqs, hexact⟩ := Span.parse_eq_ok_iff.mp hperiod
    exact ⟨text, qs, htext, hqs, hpos, hexact⟩
  · cases hsome : s.deleteAfterUseWait with
    | none => rfl
    | some wait =>
      obtain ⟨text, qs, htext, hqs, hpos, hexact⟩ := (hwait wait).mp hsome
      rcases hoff text htext with hblank | hdash | hnothing
      · rw [Text.strip_eq_nil_iff.mpr hblank] at hqs
        exact absurd hqs (Span.not_spellsSpan_of_fault (s := "") rfl qs)
      · rw [hdash] at hqs
        exact absurd hqs (Span.not_spellsSpan_of_fault (s := "-") rfl qs)
      · rw [hnothing qs hqs, Nat.cast_eq_zero] at hexact
        omega
  · rw [h.jwtPubRsaKey, Option.filter_eq_some_iff, Bool.not_eq_true', Text.isAllBlank,
      List.all_eq_false]
    simp only [Bool.not_eq_true]
  · obtain ⟨name, hname, hbackend⟩ := h.backend
    rw [hsource] at hname
    cases hname
    obtain rfl := hbackend.unique hb
    refine ⟨⟨s.backend, Backend.parse_eq_ok_iff.mpr htarget,
      fun n j => Migration.run_same n s.store s.backend j⟩, fun hmigrate surroundings j => ?_⟩
    rcases h.migrate with ⟨hnone, -⟩ | ⟨name, b, hsome, hsettled, hnamed⟩
    · rw [hmigrate] at hnone
      cases hnone
    · rw [hmigrate] at hsome
      cases hsome
      obtain rfl := hnamed.unique htarget
      rw [Program.work, hsettled]
      simp only [Migration.run_same]
      refine ⟨_, rfl, ?_⟩
      cases s.ignoredWait <;> exact ⟨rfl, rfl⟩

/-- **Accepted settings are usable.** A configuration is accepted just if it is complete, that is,
has a backend, a time between two pings, a port and the address of the device manager that can be
read, and names a backend where it says what to migrate to; only a wait that runs over is in the
way. The settings that are made of it keep what they promise. -/
theorem accepted_settings_are_usable (c : Config) :
    ((∃ s, c.settings = .ok s) ↔ c.IsComplete ∧ ¬ c.WaitRunsOver) ∧
      ∀ s, c.settings = .ok s → c.Delivers s :=
  ⟨exists_settings_iff, fun _ h => (settings_eq_ok_iff.mp h).delivers⟩

/-- A configuration that asks for a migration to the backend it has, under another name. -/
def aliasConfig : Config :=
  { defaults with
    dbImpl := some " MongoDB\n"
    migrate := some "MONGO"
    deleteAfterUseWaitDuration := some " 5m "
    jwtPubRsaKey := some " key " }

/-- The migration is refused, and the wait and the key are those of the configuration. -/
theorem alias_is_refused_as_target :
    ∃ s, aliasConfig.settings = .ok s ∧ s.deleteAfterUseWait = some ⟨300000000000⟩ ∧
      s.jwtPubRsaKey = some " key " ∧ 0 < s.wsPingPeriod.nanos ∧
      ∀ surroundings j, ∃ j',
        Program.work surroundings s j = (.unmigrated (.sameBackend .mongo), j') := by
  obtain ⟨s, hsettings⟩ : ∃ s, aliasConfig.settings = .ok s := ⟨_, rfl⟩
  have hdelivers := (accepted_settings_are_usable aliasConfig).2 s hsettings
  refine ⟨s, hsettings, ?_, ?_, ?_, ?_⟩
  · cases hsettings
    rfl
  · exact (hdelivers.key " key ").mpr ⟨rfl, 'k', by decide, by decide⟩
  · obtain ⟨_, _, -, -, hpos, -⟩ := hdelivers.wsPingPeriod
    exact hpos
  · intro surroundings j
    have hsource : Backend.IsNamed .mongo " MongoDB\n" := Backend.parse_eq_ok_iff.mp rfl
    have htarget : Backend.IsNamed .mongo "MONGO" := Backend.parse_eq_ok_iff.mp rfl
    obtain ⟨-, hwork⟩ := hdelivers.migration _ _ _ rfl hsource htarget
    obtain ⟨j', hdone, -⟩ := hwork rfl surroundings j
    exact ⟨j', hdone⟩

/-- The usual configuration, with a wait that passes the last second by a carry alone. -/
def lastSecondConfig : Config :=
  { defaults with
    deleteAfterUseWaitDuration := some "18446744073709551615s 1000000000ns" }

/-- It has all that is required, and no settings are made of it. -/
theorem complete_config_runs_over :
    lastSecondConfig.IsComplete ∧ ¬ ∃ s, lastSecondConfig.settings = .ok s := by
  obtain ⟨⟨hbackend, hmigrate, hperiod, hport, hurl⟩, -⟩ :=
    exists_settings_iff.mp ⟨_, (rfl : defaults.settings = .ok _)⟩
  have hwait : Span.parseWait "18446744073709551615s 1000000000ns" = .carryOverflow := by
    decide +kernel
  refine ⟨⟨hbackend, hmigrate, hperiod, hport, hurl⟩, fun haccepted => ?_⟩
  exact (exists_settings_iff.mp haccepted).2 ⟨_, rfl, Span.parseWait_eq_carryOverflow_iff.mp hwait⟩

end Config

end WaitingRoom
