import PmuFirmware.Lib.Run
import PmuFirmware.Can.ChargerConfig
import PmuFirmware.Can.Transmission

/-!
# Character arrays that the charger fills

The strings of the configuration are copied into their fields with a NUL behind them. The serial number
and the dates of sessions and faults are written byte by byte, up to the last one, and have a NUL only
where the charger sends it or a byte is left as it was.
-/

namespace Pmu

open CLib

/-- The string fields of `chargerConfigCAN` as they are in memory. -/
structure ConfigFields where
  hmiVersion : CharArray 45
  lcuVersion : CharArray 45
  mcuVersion : CharArray 45
  evseCommContoller : Fin 2 → CharArray 45
  pcm : Fin 10 → CharArray 30
  pmu : CharArray 45
  ocppURL : CharArray 100
  wifiSsid : CharArray 50
  wifiPassword : CharArray 100
  mqttBroker : CharArray 100
  serialNumber2 : CharArray 26
  dateTime : CharArray 25

namespace ConfigFields

def assignVersions (tokens : List CStr) (f : ConfigFields) : ConfigFields :=
  { f with
    hmiVersion := (tokens[0]?).elim f.hmiVersion (strncpyArray 45)
    lcuVersion := (tokens[1]?).elim f.lcuVersion (strncpyArray 45)
    mcuVersion := (tokens[2]?).elim f.mcuVersion (strncpyArray 45)
    evseCommContoller := fun k =>
      (tokens[3 + k.val]?).elim (f.evseCommContoller k) (strncpyArray 45) }

def parseWiFiCredentials (receivedString : CStr) (f : ConfigFields) : ConfigFields :=
  let tokens := (strtokAll ',' [] (strncpyArray 100 receivedString).cstr).1
  { f with
    wifiSsid := (tokens[0]?).elim f.wifiSsid (strncpyArray 50)
    wifiPassword := (tokens[1]?).elim f.wifiPassword (strncpyArray 100) }

/-- What is done with the complete string. -/
def store (text : CStr) (f : ConfigFields) : StringFlag → ConfigFields
  | .flagVersionInfo => f.assignVersions (strtokAll ',' [] text).1
  | .flagOcppUrl => { f with ocppURL := strncpyArray 100 text }
  | .flagPmuInitial => f.parseWiFiCredentials text
  | .flagString => { f with serialNumber2 := strncpyArray 26 text }
  | .flagDateTime => { f with dateTime := strncpyArray 25 text }

/-- The initialisation in `app_main`. -/
def powerOn : ConfigFields where
  hmiVersion _ := NUL
  lcuVersion _ := NUL
  mcuVersion _ := NUL
  evseCommContoller _ _ := NUL
  pcm _ := strncpyArray 30 "CommunicationFault".toList
  pmu _ := NUL
  ocppURL _ := NUL
  wifiSsid _ := NUL
  wifiPassword _ := NUL
  mqttBroker _ := NUL
  serialNumber2 _ := NUL
  dateTime _ := NUL

end ConfigFields

/-- The globals of the reassembly, and the fields as arrays. -/
structure ConfigMemory extends Reassembly where
  fields : ConfigFields

namespace ConfigMemory

def deliver (s : ConfigMemory) (flag : StringFlag) : ConfigMemory where
  toReassembly := s.toReassembly.deliver flag
  fields := if s.flag flag && s.giveEntrytoPrint then s.fields.store s.text flag else s.fields

def deliverAll (s : ConfigMemory) : ConfigMemory :=
  [StringFlag.flagVersionInfo, .flagOcppUrl, .flagPmuInitial, .flagString, .flagDateTime].foldl
    deliver s

/-- A step of the reassembly that stores no string. -/
def lift (step : Reassembly → Option Reassembly) (s : ConfigMemory) : Option ConfigMemory :=
  (step s.toReassembly).map fun r => ⟨r, s.fields⟩

open Reassembly in
/-- The frames of `handle_charger_config` that carry strings. -/
def handleChargerConfig (data : Frame) (s : ConfigMemory) : Option ConfigMemory :=
  if 5 < (data 0).toNat then
    if (data 0).toNat = s.prevSequenceNo then some s
    else
      (s.lift fun r => takeBytes complete [data 1, data 2, data 3, data 4, data 5, data 6, data 7]
        { r with prevSequenceNo := (data 0).toNat }).map deliverAll
  else if (data 0).toNat = 5 then
    match (data 1).toNat with
    | 7 => (s.lift (beginString terminate data)).map fun s =>
        { s with
          config := { s.config with mqttBroker := fieldText 100 s.text }
          fields := { s.fields with mqttBroker := strncpyArray 100 s.text } }
    | _ => s.lift (Pmu.handleChargerConfig data)
  else some s

/-- The fields are those of the strings. -/
structure Represents (f : ConfigFields) (c : ConfigStrings) : Prop where
  hmiVersion : f.hmiVersion.cstr = c.versionInfo.hmiVersion
  lcuVersion : f.lcuVersion.cstr = c.versionInfo.lcuVersion
  mcuVersion : f.mcuVersion.cstr = c.versionInfo.mcuVersion
  evseCommContoller : ∀ k, (f.evseCommContoller k).cstr = c.versionInfo.evseCommContoller k
  ocppURL : f.ocppURL.cstr = c.ocppURL
  wifiSsid : f.wifiSsid.cstr = c.wifiSsid
  wifiPassword : f.wifiPassword.cstr = c.wifiPassword
  mqttBroker : f.mqttBroker.cstr = c.mqttBroker
  serialNumber2 : f.serialNumber2.cstr = c.serialNumber2
  dateTime : f.dateTime.cstr = c.dateTime

theorem map_lift (step : Reassembly → Option Reassembly) (s : ConfigMemory) :
    (s.lift step).map toReassembly = step s.toReassembly := by
  rw [lift, Option.map_map]
  exact Option.map_id_fun' ▸ rfl

/-- A frame has the effect on the globals that the reassembly has. -/
theorem handleChargerConfig_toReassembly (data : Frame) (s : ConfigMemory) :
    (s.handleChargerConfig data).map toReassembly
      = Pmu.handleChargerConfig data s.toReassembly := by
  rw [handleChargerConfig]
  by_cases hstring : 5 < (data 0).toNat
  · rw [if_pos hstring, Pmu.handleChargerConfig, if_pos hstring, Reassembly.continueString]
    by_cases hrepeated : (data 0).toNat = s.prevSequenceNo
    · rw [if_pos hrepeated, if_pos hrepeated]
      rfl
    · rw [if_neg hrepeated, if_neg hrepeated, lift, Option.map_map, Option.map_map]
      rfl
  · rw [if_neg hstring]
    by_cases hfive : (data 0).toNat = 5
    · rw [if_pos hfive]
      split
      case h_1 hbroker =>
        rw [Pmu.handleChargerConfig, if_neg hstring, if_pos hfive, hbroker, lift, Option.map_map,
          Option.map_map]
        rfl
      case h_2 => exact map_lift _ s
    · rw [if_neg hfive, Pmu.handleChargerConfig, if_neg hstring, if_neg hfive]
      rfl

theorem run_toReassembly (frames : List Frame) (s : ConfigMemory) :
    (Runs.run handleChargerConfig frames s).map toReassembly
      = Runs.run Pmu.handleChargerConfig frames s.toReassembly := by
  induction frames generalizing s with
  | nil => rfl
  | cons data frames ih =>
      rw [Runs.run_cons, Runs.run_cons, ← handleChargerConfig_toReassembly data s]
      cases hstep : s.handleChargerConfig data with
      | none => rfl
      | some s₁ => exact ih s₁

/-! ### What a frame can do -/

theorem terminate_config {r r' : Reassembly} (h : r.terminate = some r') : r'.config = r.config :=
  Reassembly.terminate_observes Reassembly.config (fun _ _ _ => rfl) h

theorem complete_config {r r' : Reassembly} (h : r.complete = some r') : r'.config = r.config := by
  obtain ⟨r₁, hterminate, rfl⟩ := Option.map_eq_some_iff.mp h
  have hconfig : r₁.config = r.config := terminate_config hterminate
  exact hconfig

theorem takeBytes_config {finish : Reassembly → Option Reassembly}
    (hfinish : ∀ r r', finish r = some r' → r'.config = r.config) {bytes : List UInt8}
    {r r' : Reassembly} (h : Reassembly.takeBytes finish bytes r = some r') :
    r'.config = r.config :=
  Reassembly.takeBytes_observes Reassembly.config (fun _ _ _ => rfl) hfinish h

/-- A header that is not the one of the broker stores nothing. -/
theorem header_config {data : Frame} (hfive : (data 0).toNat = 5) (hbroker : (data 1).toNat ≠ 7)
    {r r' : Reassembly} (h : Pmu.handleChargerConfig data r = some r') : r'.config = r.config := by
  have hsome : ∀ r r' : Reassembly, some r = some r' → r'.config = r.config :=
    fun _ _ heq => Option.some.inj heq ▸ rfl
  rw [Pmu.handleChargerConfig, if_neg (by omega), if_pos hfive] at h
  split at h
  case h_4 hseven => exact absurd hseven hbroker
  case h_7 => exact hsome _ _ h
  all_goals
    rw [Reassembly.beginFlagged, Reassembly.beginString] at h
    have hconfig := takeBytes_config hsome h
    exact hconfig

/-- The string with its buffer moves on, and then it is stored, if at all, as one of the five strings
or as the broker. -/
theorem handleChargerConfig_cases {data : Frame} {s s' : ConfigMemory}
    (hstep : s.handleChargerConfig data = some s') :
    ∃ r : Reassembly, r.config = s.config ∧
      (s' = ⟨r, s.fields⟩ ∨ s' = deliverAll ⟨r, s.fields⟩
        ∨ s' = ⟨{ r with config := { r.config with mqttBroker := fieldText 100 r.text } },
            { s.fields with mqttBroker := strncpyArray 100 r.text }⟩) := by
  rw [handleChargerConfig] at hstep
  by_cases hstring : 5 < (data 0).toNat
  · rw [if_pos hstring] at hstep
    by_cases hrepeated : (data 0).toNat = s.prevSequenceNo
    · rw [if_pos hrepeated] at hstep
      exact ⟨s.toReassembly, rfl, .inl (Option.some.inj hstep).symm⟩
    · rw [if_neg hrepeated, lift, Option.map_map] at hstep
      obtain ⟨r, hr, rfl⟩ := Option.map_eq_some_iff.mp hstep
      have hconfig := takeBytes_config (fun _ _ => complete_config) hr
      exact ⟨r, hconfig, .inr (.inl rfl)⟩
  · rw [if_neg hstring] at hstep
    by_cases hfive : (data 0).toNat = 5
    · rw [if_pos hfive] at hstep
      split at hstep
      case h_1 =>
        rw [lift, Option.map_map] at hstep
        obtain ⟨r, hr, rfl⟩ := Option.map_eq_some_iff.mp hstep
        have hconfig := takeBytes_config (fun _ _ => terminate_config) hr
        exact ⟨r, hconfig, .inr (.inr rfl)⟩
      case h_2 hother =>
        obtain ⟨r, hr, rfl⟩ := Option.map_eq_some_iff.mp hstep
        exact ⟨r, header_config hfive hother hr, .inl rfl⟩
    · rw [if_neg hfive] at hstep
      exact ⟨s.toReassembly, rfl, .inl (Option.some.inj hstep).symm⟩

/-! ### The arrays hold the strings -/

theorem cstr_field {n : Nat} {text : CStr} (htext : NUL ∉ text) :
    (strncpyArray (n + 1) text).cstr = fieldText (n + 1) text := cstr_strncpyArray htext

theorem nul_notMem_text (r : Reassembly) : NUL ∉ r.text := fun hnul =>
  absurd (List.mem_takeWhile_imp hnul) (by simp)

theorem cstr_token {n : Nat} {tokens : List CStr} (htokens : ∀ t ∈ tokens, NUL ∉ t) (k : Nat)
    {a : CharArray (n + 1)} {text : CStr} (h : a.cstr = text) :
    CharArray.cstr ((tokens[k]?).elim a (strncpyArray (n + 1)))
      = (tokens[k]?).elim text (fieldText (n + 1)) := by
  cases htoken : tokens[k]? with
  | none => exact h
  | some token => exact cstr_field (htokens token (List.mem_of_getElem? htoken))

theorem Represents.store {f : ConfigFields} {c : ConfigStrings} (h : Represents f c) {text : CStr}
    (htext : NUL ∉ text) (flag : StringFlag) :
    Represents (f.store text flag) (flag.store text c) := by
  cases flag with
  | flagVersionInfo =>
      have htokens : ∀ token ∈ (strtokAll ',' [] text).1, NUL ∉ token :=
        notMem_of_mem_strtokAll htext List.not_mem_nil
      exact { h with
        hmiVersion := cstr_token htokens 0 h.hmiVersion
        lcuVersion := cstr_token htokens 1 h.lcuVersion
        mcuVersion := cstr_token htokens 2 h.mcuVersion
        evseCommContoller := fun k => cstr_token htokens (3 + k.val) (h.evseCommContoller k) }
  | flagOcppUrl => exact { h with ocppURL := cstr_field htext }
  | flagPmuInitial =>
      have hbuffer : NUL ∉ fieldText 100 text := fun hnul => htext (List.mem_of_mem_take hnul)
      have htokens : ∀ token ∈ (strtokAll ',' [] (fieldText 100 text)).1, NUL ∉ token :=
        notMem_of_mem_strtokAll hbuffer List.not_mem_nil
      rw [ConfigFields.store, ConfigFields.parseWiFiCredentials, cstr_field htext]
      exact { h with
        wifiSsid := cstr_token htokens 0 h.wifiSsid
        wifiPassword := cstr_token htokens 1 h.wifiPassword }
  | flagString => exact { h with serialNumber2 := cstr_field htext }
  | flagDateTime => exact { h with dateTime := cstr_field htext }

theorem Represents.deliver {s : ConfigMemory} (h : Represents s.fields s.config)
    (flag : StringFlag) : Represents (s.deliver flag).fields (s.deliver flag).config := by
  show Represents (if s.flag flag && s.giveEntrytoPrint then _ else _)
    (s.toReassembly.deliver flag).config
  rw [Reassembly.deliver]
  split
  · exact h.store (nul_notMem_text s.toReassembly) flag
  · exact h

/-- The arrays hold the strings of the reassembly after each frame. -/
theorem Represents.handleChargerConfig {s s' : ConfigMemory} (h : Represents s.fields s.config)
    {data : Frame} (hstep : s.handleChargerConfig data = some s') :
    Represents s'.fields s'.config := by
  obtain ⟨r, hconfig, hs' | hs' | hs'⟩ := handleChargerConfig_cases hstep
  · rw [hs']
    exact hconfig ▸ h
  · have hr : Represents (⟨r, s.fields⟩ : ConfigMemory).fields
        (⟨r, s.fields⟩ : ConfigMemory).config := hconfig ▸ h
    rw [hs']
    exact ((((hr.deliver _).deliver _).deliver _).deliver _).deliver _
  · rw [hs', hconfig]
    exact { h with mqttBroker := cstr_field (nul_notMem_text r) }

/-- The initialisation in `app_main`. -/
def powerOn : ConfigMemory := ⟨.powerOn noStrings, .powerOn⟩

theorem powerOn_represents : Represents powerOn.fields powerOn.config := by
  have hzero : ∀ n, CharArray.cstr (fun _ : Fin (n + 1) => NUL) = [] := by
    intro n
    rw [CharArray.cstr, List.ofFn_succ]
    exact List.takeWhile_cons_of_neg (by decide)
  exact ⟨hzero 44, hzero 44, hzero 44, fun _ => hzero 44, hzero 99, hzero 49, hzero 99, hzero 99,
    hzero 25, hzero 24⟩

/-- In every state that frames lead to, the arrays hold the strings. -/
theorem fields_represent {frames : List Frame} {s : ConfigMemory}
    (hrun : Runs.run handleChargerConfig frames powerOn = some s) :
    Represents s.fields s.config :=
  Runs.run_invariant
    (fun _ _ _ h (_ : True) hstep => Represents.handleChargerConfig h hstep) powerOn_represents
    (Runs.Meets.of_forall fun _ _ _ => trivial) hrun

end ConfigMemory

end Pmu
