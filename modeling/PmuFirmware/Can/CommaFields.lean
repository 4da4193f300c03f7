import PmuFirmware.Can.Termination
import PmuFirmware.Can.VersionFrames

/-!
# Fields separated by commas

The credentials for the Wi-Fi and the versions come as one string each. `strtok` takes them apart: it
merges separators that follow each other, so an empty field does not count as one. The tokens are
assigned by their position, and a field without a token keeps what an earlier string has left in it.
-/

namespace Pmu

open CLib

/-! ### Fields by position -/

section Positions

variable {fields : List CStr} {old : Nat → CStr} {cut : CStr → CStr}

/-- The fields that are not empty come first. -/
def FilledFirst (fields : List CStr) (count : Nat) : Prop :=
  ∀ i x, fields[i]? = some x → (x ≠ [] ↔ i < count)

theorem filter_take {count : Nat}
    (h : ∀ i x, fields[i]? = some x → i < count → x ≠ []) :
    (fields.take count).filter (· ≠ []) = fields.take count := by
  rw [List.filter_eq_self]
  intro x hx
  obtain ⟨i, hi⟩ := List.mem_iff_getElem?.mp hx
  rw [List.getElem?_take] at hi
  split at hi
  · next hlt => simpa using h i x hi hlt
  · cases hi

theorem filter_drop_eq_nil_iff {count : Nat} :
    (fields.drop count).filter (· ≠ []) = []
      ↔ ∀ i x, fields[i]? = some x → count ≤ i → x = [] := by
  rw [List.filter_eq_nil_iff]
  constructor
  · intro h i x hx hi
    have hmem : x ∈ fields.drop count := by
      refine List.mem_iff_getElem?.mpr ⟨i - count, ?_⟩
      rwa [List.getElem?_drop, Nat.add_sub_cancel' hi]
    simpa using h x hmem
  · intro h x hx
    obtain ⟨i, hi⟩ := List.mem_iff_getElem?.mp hx
    rw [List.getElem?_drop] at hi
    simpa using h _ x hi (Nat.le_add_right _ _)

theorem filter_eq_append (fields : List CStr) (count : Nat) : fields.filter (· ≠ [])
    = (fields.take count).filter (· ≠ []) ++ (fields.drop count).filter (· ≠ []) := by
  rw [← List.filter_append, List.take_append_drop]

/-- The tokens of the fields that are not empty, assigned by position, are the fields themselves exactly
when the empty ones come last and nothing is left in them. -/
theorem assigned_iff (hcut : ∀ x, cut x = [] ↔ x = []) :
    (∀ i x, fields[i]? = some x →
        ((fields.filter (· ≠ []))[i]?).elim (old i) cut = cut x)
      ↔ ∃ count, FilledFirst fields count ∧ ∀ i < fields.length, count ≤ i → old i = [] := by
  constructor
  · intro h
    have hle : (fields.filter (· ≠ [])).length ≤ fields.length := List.length_filter_le _ _
    have hfront : ∀ i x, fields[i]? = some x → i < (fields.filter (· ≠ [])).length → x ≠ [] := by
      intro i x hx hi hempty
      have hassigned := h i x hx
      have hne := List.of_mem_filter (List.getElem_mem hi)
      rw [List.getElem?_eq_getElem hi, Option.elim_some, hempty, (hcut []).mpr rfl, hcut] at hassigned
      rw [hassigned] at hne
      simp at hne
    have hdrop : (fields.drop (fields.filter (· ≠ [])).length).filter (· ≠ []) = [] := by
      have hsplit := congrArg List.length (filter_eq_append fields (fields.filter (· ≠ [])).length)
      rw [List.length_append, filter_take hfront, List.length_take, Nat.min_eq_left hle] at hsplit
      exact List.eq_nil_of_length_eq_zero (by omega)
    have hback := filter_drop_eq_nil_iff.mp hdrop
    refine ⟨(fields.filter (· ≠ [])).length, fun i x hx => ⟨fun hne => ?_, hfront i x hx⟩, ?_⟩
    · by_contra hge
      exact hne (hback i x hx (Nat.not_lt.mp hge))
    · intro i hi hcount
      have hx := List.getElem?_eq_getElem hi
      have hassigned := h i _ hx
      rw [List.getElem?_eq_none hcount, hback i _ hx hcount] at hassigned
      exact hassigned.trans ((hcut []).mpr rfl)
  · rintro ⟨count, hfilled, hold⟩ i x hx
    have htokens : fields.filter (· ≠ []) = fields.take count := by
      have hback : (fields.drop count).filter (· ≠ []) = [] :=
        filter_drop_eq_nil_iff.mpr fun j y hy hj => by
          by_contra hne
          exact absurd ((hfilled j y hy).mp hne) (Nat.not_lt.mpr hj)
      rw [filter_eq_append fields count, filter_take fun j y hy => (hfilled j y hy).mpr, hback,
        List.append_nil]
    have hi : i < fields.length := (List.getElem?_eq_some_iff.mp hx).1
    rw [htokens, List.getElem?_take]
    split
    · rw [hx, Option.elim_some]
    · next hge =>
        have hempty : x = [] := by
          by_contra hne
          exact hge ((hfilled i x hx).mp hne)
        rw [hempty, (hcut []).mpr rfl]
        exact hold i hi (Nat.not_lt.mp hge)

end Positions

/-! ### The versions -/

/-- The versions in the order in which they are sent. -/
def VersionInfo.inOrder (v : VersionInfo) (i : Nat) : CStr :=
  if i = 0 then v.hmiVersion
  else if i = 1 then v.lcuVersion
  else if i = 2 then v.mcuVersion
  else if i = 3 then v.evseCommContoller 0
  else v.evseCommContoller 1

theorem fieldText_eq_nil_iff {size : Nat} (hsize : 1 < size) (text : CStr) :
    fieldText size text = [] ↔ text = [] := by
  rw [fieldText, List.take_eq_nil_iff, or_iff_right (by omega)]

theorem inOrder_assignVersions (tokens : List CStr) (v : VersionInfo) {i : Nat} (hi : i < 5) :
    (assignVersions tokens v).inOrder i = (tokens[i]?).elim (v.inOrder i) (fieldText 45) := by
  interval_cases i <;> rfl

namespace SentVersions

variable {v : SentVersions}

theorem comma_notMem_text (i : Fin 5) : ',' ∉ v.text i := by
  intro hmem
  obtain ⟨b, hb, hcomma⟩ := List.mem_map.mp hmem
  exact (v.clean i b hb).2 (byteChar_injective hcomma)

theorem text_eq_nil_iff (i : Fin 5) : v.text i = [] ↔ v.version i = [] := List.map_eq_nil_iff

theorem fieldText_text (hfits : ∀ i, (v.version i).length ≤ 44) (i : Fin 5) :
    fieldText 45 (v.text i) = v.text i := by
  rw [fieldText, List.take_of_length_le]
  rw [text, List.length_map]
  exact hfits i

theorem ne_zero_of_mem_bytes {b : UInt8} (hb : b ∈ v.bytes) : b ≠ 0 := by
  rw [bytes_eq] at hb
  simp only [List.mem_append, List.mem_cons] at hb
  rcases hb with hb | rfl | hb | rfl | hb | rfl | hb | rfl | hb
  · exact (v.clean 0 b hb).1
  · decide
  · exact (v.clean 1 b hb).1
  · decide
  · exact (v.clean 2 b hb).1
  · decide
  · exact (v.clean 3 b hb).1
  · decide
  · exact (v.clean 4 b hb).1

theorem transmission_string (hlength : v.bytes.length ≤ 99) :
    (v.transmission hlength).string = [','].intercalate (List.ofFn v.text) := by
  have hbytes : ((List.range v.bytes.length).map fun k => byteChar (v.byte k))
      = v.bytes.map byteChar := by
    apply List.ext_getElem
    · simp
    · intro k hk _
      have hk : k < v.bytes.length := by simpa using hk
      simp [byte, hk]
  have hclean : ∀ c ∈ v.bytes.map byteChar, (c != NUL) = true := by
    intro c hc
    obtain ⟨b, hb, rfl⟩ := List.mem_map.mp hc
    rw [bne_iff_ne, Ne, byteChar_eq_nul_iff]
    exact ne_zero_of_mem_bytes hb
  rw [← map_bytes]
  show List.takeWhile _ ((List.range v.bytes.length).map fun k => byteChar (v.byte k)) = _
  rw [hbytes, List.takeWhile_eq_self_iff.mpr hclean]

/-- The versions that are not empty. -/
def filled (v : SentVersions) : List CStr := (List.ofFn v.text).filter (· ≠ [])

theorem parts_string : parts ',' ([','].intercalate (List.ofFn v.text)) = v.filled := by
  refine parts_intercalate (fun x hx => ?_) (by simp [List.ofFn_succ])
  obtain ⟨i, rfl⟩ := List.mem_ofFn.mp hx
  exact comma_notMem_text i

/-- A string that is taken apart assigns the versions by position. -/
theorem receive_fitting {s : Reassembly} (hlength : v.bytes.length ≤ 99)
    (hentry : s.giveEntrytoPrint = false) (hprev : s.prevSequenceNo ≠ 6) :
    ∃ s', Runs.run handleChargerConfig v.frames s = some s' ∧ ∀ i : Fin 5,
      s'.config.versionInfo.inOrder i
        = (v.filled[i.val]?).elim (s.config.versionInfo.inOrder i) (fieldText 45) := by
  by_cases hfive : 5 ≤ v.bytes.length
  · obtain ⟨s', hreceive, hconfig⟩ :=
      (v.transmission hlength).receive_versions rfl hfive hentry hprev
    rw [Transmission.receive, transmission_frames] at hreceive
    refine ⟨s', hreceive, fun i => ?_⟩
    have hput : ((v.transmission hlength).put s.config).versionInfo
        = assignVersions (parts ',' (v.transmission hlength).string) s.config.versionInfo := rfl
    rw [hconfig, hput, inOrder_assignVersions _ _ i.isLt, transmission_string, parts_string]
  · -- nothing but the commas: the header is the whole string
    have hfour := v.le_length_bytes
    obtain ⟨s', hheader, hmiddle⟩ := receive_header (v := v) (by omega) hentry
    have hnone : v.continuations = 0 := by
      rw [continuations]
      omega
    have hempty : v.filled = [] := by
      rw [filled, List.filter_eq_nil_iff]
      intro x hx
      obtain ⟨i, rfl⟩ := List.mem_ofFn.mp hx
      have hlength := v.length_version_le i
      have hversion : v.version i = [] := List.eq_nil_of_length_eq_zero (by omega)
      simp [text, hversion]
    refine ⟨s', ?_, fun i => ?_⟩
    · rw [frames, hnone, Runs.run_cons, hheader]
      rfl
    · rw [hmiddle.config, hempty]
      rfl

end SentVersions

/-- The five fields in the order in which they are sent. -/
def ConfigFields.versionAt (f : ConfigFields) (i : Fin 5) : CharArray 45 :=
  ![f.hmiVersion, f.lcuVersion, f.mcuVersion, f.evseCommContoller 0, f.evseCommContoller 1] i

theorem ConfigMemory.Represents.versionAt {f : ConfigFields} {c : ConfigStrings}
    (h : ConfigMemory.Represents f c) (i : Fin 5) :
    (f.versionAt i).cstr = c.versionInfo.inOrder i := by
  fin_cases i
  · exact h.hmiVersion
  · exact h.lcuVersion
  · exact h.mcuVersion
  · exact h.evseCommContoller 0
  · exact h.evseCommContoller 1

theorem ConfigFields.Terminated.versionAt {f : ConfigFields} (h : f.Terminated) (i : Fin 5) :
    (f.versionAt i).Terminated := by
  fin_cases i
  · exact h.hmiVersion
  · exact h.lcuVersion
  · exact h.mcuVersion
  · exact h.evseCommContoller 0
  · exact h.evseCommContoller 1

/-- The frames leave each version in its own field. -/
def VersionsDecoded (v : SentVersions) (s : ConfigMemory) : Prop :=
  ∃ s', Runs.run ConfigMemory.handleChargerConfig v.frames s = some s'
    ∧ ∀ i, (s'.fields.versionAt i).cstr = v.text i

/-- No complete string waits, and then: the string fits the buffer, the versions their fields, the empty
versions come last and their fields are empty already; or, when the first continuation frame is taken for
a repetition, the fields have the versions already and the rest of the string fits. -/
def VersionsFit (v : SentVersions) (s : ConfigMemory) : Prop :=
  s.giveEntrytoPrint = false
    ∧ if s.prevSequenceNo = 6 then
        v.bytes.length ≤ 102 ∧ ∀ i, (s.fields.versionAt i).cstr = v.text i
      else
        v.bytes.length ≤ 99 ∧ (∀ i, (v.version i).length ≤ 44)
          ∧ ∃ count, (∀ i : Fin 5, v.version i ≠ [] ↔ i.val < count)
            ∧ ∀ i : Fin 5, count ≤ i.val → (s.fields.versionAt i).cstr = []

section Versions

variable {v : SentVersions} {s : ConfigMemory}

theorem versionsDecoded_iff_config (hs : ConfigMemory.Represents s.fields s.config) :
    VersionsDecoded v s ↔ ∃ r, Runs.run handleChargerConfig v.frames s.toReassembly = some r
      ∧ ∀ i : Fin 5, r.config.versionInfo.inOrder i = v.text i := by
  have hrepresents : ∀ s', Runs.run ConfigMemory.handleChargerConfig v.frames s = some s' →
      ConfigMemory.Represents s'.fields s'.config := fun s' hrun =>
    Runs.run_invariant
      (fun _ _ _ (h : ConfigMemory.Represents _ _) (_ : True) hstep => h.handleChargerConfig hstep)
      hs (Runs.Meets.of_forall fun _ _ _ => trivial) hrun
  rw [← ConfigMemory.run_toReassembly]
  constructor
  · rintro ⟨s', hrun, hdecoded⟩
    refine ⟨s'.toReassembly, by rw [hrun]; rfl, fun i => ?_⟩
    rw [← (hrepresents s' hrun).versionAt i, hdecoded i]
  · rintro ⟨r, hmap, hdecoded⟩
    obtain ⟨s', hrun, rfl⟩ := Option.map_eq_some_iff.mp hmap
    exact ⟨s', hrun, fun i => by rw [(hrepresents s' hrun).versionAt i, hdecoded i]⟩

theorem versionsAssigned_iff (hfits : ∀ i, (v.version i).length ≤ 44) (old : Nat → CStr) :
    (∀ i : Fin 5, (v.filled[i.val]?).elim (old i) (fieldText 45) = v.text i)
      ↔ ∃ count, (∀ i : Fin 5, v.version i ≠ [] ↔ i.val < count)
        ∧ ∀ i : Fin 5, count ≤ i.val → old i = [] := by
  have hget : ∀ i : Fin 5, (List.ofFn v.text)[i.val]? = some (v.text i) := fun i => by
    rw [List.getElem?_ofFn, dif_pos i.isLt]
  have hassigned := @assigned_iff (List.ofFn v.text) old (fieldText 45)
    (fieldText_eq_nil_iff (by decide))
  have hlength : (List.ofFn v.text).length = 5 := List.length_ofFn
  have hfilled : ∀ count, FilledFirst (List.ofFn v.text) count
      ↔ ∀ i : Fin 5, v.version i ≠ [] ↔ i.val < count := by
    intro count
    constructor
    · intro h i
      rw [← h i.val _ (hget i), Ne, Ne, SentVersions.text_eq_nil_iff]
    · intro h i x hx
      have hi : i < 5 := hlength ▸ (List.getElem?_eq_some_iff.mp hx).1
      obtain rfl := Option.some.inj ((hget ⟨i, hi⟩).symm.trans hx)
      rw [← h ⟨i, hi⟩, Ne, Ne, SentVersions.text_eq_nil_iff]
  constructor
  · intro h
    obtain ⟨count, hcount, hold⟩ := hassigned.mp fun i x hx => by
      have hi : i < 5 := hlength ▸ (List.getElem?_eq_some_iff.mp hx).1
      obtain rfl := Option.some.inj ((hget ⟨i, hi⟩).symm.trans hx)
      rw [SentVersions.fieldText_text hfits]
      exact h ⟨i, hi⟩
    exact ⟨count, (hfilled count).mp hcount, fun i => hold i (by rw [hlength]; exact i.isLt)⟩
  · rintro ⟨count, hcount, hold⟩ i
    have hfield := hassigned.mpr ⟨count, (hfilled count).mpr hcount, fun i hi =>
      hold ⟨i, hlength ▸ hi⟩⟩ i.val _ (hget i)
    rw [SentVersions.fieldText_text hfits] at hfield
    exact hfield

/-- A field has room for 44 characters. -/
theorem VersionsDecoded.fits (hs : s.fields.Terminated) (h : VersionsDecoded v s) (i : Fin 5) :
    (v.version i).length ≤ 44 := by
  obtain ⟨s', hrun, hdecoded⟩ := h
  have hterminated : s'.fields.Terminated := Runs.run_invariant
    (fun _ _ _ (h : ConfigFields.Terminated _) (_ : True) hstep => h.handleChargerConfig hstep)
    hs (Runs.Meets.of_forall fun _ _ _ => trivial) hrun
  have hlength := length_cstr_lt (hterminated.versionAt i)
  rw [hdecoded i, SentVersions.text, List.length_map] at hlength
  omega

theorem VersionsFit.fits (hs : s.fields.Terminated) (h : VersionsFit v s) (i : Fin 5) :
    (v.version i).length ≤ 44 := by
  obtain ⟨-, h⟩ := h
  split at h
  · have hlength := length_cstr_lt (hs.versionAt i)
    rw [h.2 i, SentVersions.text, List.length_map] at hlength
    omega
  · exact h.2.1 i

/-- Each field gets its own version exactly when the string fits. -/
theorem versionsDecoded_iff {frames : List Frame}
    (hrun : Runs.run ConfigMemory.handleChargerConfig frames .powerOn = some s) :
    (VersionsFit v s → VersionsDecoded v s)
      ∧ (s.giveEntrytoPrint = false → VersionsDecoded v s → VersionsFit v s) := by
  have hs := ConfigMemory.fields_represent hrun
  have hversionAt : ∀ i : Fin 5, (s.fields.versionAt i).cstr = s.config.versionInfo.inOrder i :=
    hs.versionAt
  suffices h : s.giveEntrytoPrint = false → (∀ i, (v.version i).length ≤ 44) →
      (VersionsDecoded v s ↔ VersionsFit v s) by
    refine ⟨fun hfit => ?_, fun hentry hdecoded => ?_⟩
    · exact (h hfit.1 (hfit.fits (.of_run hrun))).mpr hfit
    · exact (h hentry (hdecoded.fits (.of_run hrun))).mp hdecoded
  intro hentry hfits
  have hlength : v.bytes.length < 256 := lt_of_le_of_lt (v.length_bytes_le hfits) (by decide)
  rw [versionsDecoded_iff_config hs, VersionsFit, and_iff_right hentry]
  simp only [hversionAt]
  by_cases hprev : s.prevSequenceNo = 6
  · have hlost := SentVersions.receive_lost (v := v) (s := s.toReassembly) hlength hentry hprev
    rw [if_pos hprev]
    split at hlost
    · next hshort =>
        obtain ⟨r, hreceive, hconfig⟩ := hlost
        rw [hreceive, and_iff_right hshort]
        constructor
        · rintro ⟨r', hr', hdecoded⟩ i
          rw [← hdecoded i, ← Option.some.inj hr', hconfig]
        · intro hold
          exact ⟨r, rfl, fun i => by rw [hconfig, hold i]⟩
    · next hlong =>
        rw [hlost]
        exact iff_of_false (by simp) fun h => hlong h.1
  · rw [if_neg hprev, and_iff_right hfits]
    by_cases hshort : v.bytes.length ≤ 99
    · obtain ⟨r, hreceive, hassigned⟩ := SentVersions.receive_fitting hshort hentry hprev
      rw [hreceive, and_iff_right hshort, ← versionsAssigned_iff hfits]
      constructor
      · rintro ⟨r', hr', hdecoded⟩ i
        rw [← hassigned i, Option.some.inj hr', hdecoded i]
      · intro hold
        exact ⟨r, rfl, fun i => by rw [hassigned i, hold i]⟩
    · rw [SentVersions.receive_too_long hlength (by omega) hentry hprev]
      exact iff_of_false (by simp) fun h => hshort h.1

end Versions

/-! ### The credentials -/

/-- The credentials are set to what the string was put together from. -/
def CredentialsDecoded (ssid password : CStr) (c : ConfigStrings) : Prop :=
  (parseWiFiCredentials (ssid ++ ',' :: password) c).wifiSsid = fieldText 50 ssid
    ∧ (parseWiFiCredentials (ssid ++ ',' :: password) c).wifiPassword = fieldText 100 password

/-- Both are there and there is no further comma, or what is missing was missing before. -/
def CredentialsFit (ssid password : CStr) (c : ConfigStrings) : Prop :=
  (ssid ≠ [] ∧ password ≠ [] ∧ ',' ∉ password)
    ∨ ((ssid = [] → c.wifiSsid = []) ∧ (∀ x ∈ password, x = ',') ∧ c.wifiPassword = password)

section Credentials

variable {ssid password : CStr} {c : ConfigStrings}

theorem parseWiFiCredentials_eq (hssid : ',' ∉ ssid)
    (hlength : (ssid ++ ',' :: password).length ≤ 99) :
    parseWiFiCredentials (ssid ++ ',' :: password) c
      = let tokens := (if ssid = [] then [] else [ssid]) ++ parts ',' password
        { c with
          wifiSsid := (tokens[0]?).elim c.wifiSsid (fieldText 50)
          wifiPassword := (tokens[1]?).elim c.wifiPassword (fieldText 100) } := by
  have hall : fieldText 100 (ssid ++ ',' :: password) = ssid ++ ',' :: password :=
    List.take_of_length_le hlength
  rw [parseWiFiCredentials, hall, strtokAll_eq _ List.not_mem_nil, List.nil_append,
    parts_append_cons hssid]

/-- The password as one token, or as none. -/
theorem password_assigned_iff (hlength : password.length ≤ 99) (old : CStr) :
    ((parts ',' password)[0]?).elim old (fieldText 100) = fieldText 100 password
      ↔ password ≠ [] ∧ ',' ∉ password ∨ (∀ x ∈ password, x = ',') ∧ old = password := by
  have hall : fieldText 100 password = password := List.take_of_length_le hlength
  rw [hall]
  by_cases hempty : parts ',' password = []
  · have honly := parts_eq_nil_iff.mp hempty
    have hnot : ¬ (password ≠ [] ∧ ',' ∉ password) := by
      rintro ⟨hne, hcomma⟩
      obtain ⟨x, hx⟩ := List.exists_mem_of_ne_nil _ hne
      exact hcomma (honly x hx ▸ hx)
    rw [hempty, or_iff_right hnot, and_iff_right honly]
    rfl
  · obtain ⟨token, rest, hparts⟩ := List.exists_cons_of_ne_nil hempty
    obtain ⟨hcomma, hne⟩ := of_mem_parts (hparts ▸ List.mem_cons_self : token ∈ parts ',' password)
    have hnot : ¬ ((∀ x ∈ password, x = ',') ∧ old = password) := fun h =>
      hempty (parts_eq_nil_iff.mpr h.1)
    rw [or_iff_left hnot, hparts]
    constructor
    · intro htoken
      have htoken : token.take 99 = password := htoken
      rw [← htoken]
      exact ⟨fun hnil => hne (by simpa using hnil), fun hmem => hcomma (List.mem_of_mem_take hmem)⟩
    · rintro ⟨hpassword, hfree⟩
      rw [parts_eq_singleton hfree hpassword] at hparts
      obtain ⟨rfl, -⟩ := List.cons.inj hparts
      exact hall

theorem credentialsDecoded_iff (hssid : ',' ∉ ssid)
    (hlength : (ssid ++ ',' :: password).length ≤ 99) :
    CredentialsDecoded ssid password c ↔ CredentialsFit ssid password c := by
  have hshort : password.length ≤ 99 := by
    rw [List.length_append, List.length_cons] at hlength
    omega
  rw [CredentialsDecoded, parseWiFiCredentials_eq hssid hlength, CredentialsFit]
  by_cases hempty : ssid = []
  · subst hempty
    rw [if_pos rfl, List.nil_append]
    by_cases hnone : parts ',' password = []
    · have hall : fieldText 100 password = password := List.take_of_length_le hshort
      have honly := parts_eq_nil_iff.mp hnone
      rw [hnone, hall]
      constructor
      · rintro ⟨hfirst, hsecond⟩
        exact .inr ⟨fun _ => hfirst, honly, hsecond⟩
      · rintro (⟨h, -⟩ | ⟨hfirst, -, hsecond⟩)
        · exact absurd rfl h
        · exact ⟨hfirst rfl, hsecond⟩
    · obtain ⟨token, rest, hparts⟩ := List.exists_cons_of_ne_nil hnone
      have hne := (of_mem_parts (hparts ▸ List.mem_cons_self : token ∈ parts ',' password)).2
      refine iff_of_false ?_ ?_
      · rintro ⟨hfirst, -⟩
        rw [hparts] at hfirst
        exact hne ((fieldText_eq_nil_iff (by decide) token).mp hfirst)
      · rintro (⟨h, -⟩ | ⟨-, honly, -⟩)
        · exact h rfl
        · exact hnone (parts_eq_nil_iff.mpr honly)
  · rw [if_neg hempty]
    have hpassword := password_assigned_iff hshort c.wifiPassword
    simp only [List.singleton_append, List.getElem?_cons_zero, List.getElem?_cons_succ,
      Option.elim_some, true_and, hempty, not_false_eq_true, ne_eq, false_implies]
    exact hpassword

end Credentials

/-! ### Both strings -/

/-- A configuration with a password. -/
def configured : ConfigStrings := { noStrings with wifiSsid := ['a'], wifiPassword := ['b'] }

theorem shortDigits_clean : ∀ i : Fin 5,
    ∀ b ∈ (![[49], [50], [51], [52], []] : Fin 5 → List UInt8) i, b ≠ 0 ∧ b ≠ 44 := by decide +kernel

/-- The string `1,2,3,4,`. -/
def withoutLast : SentVersions := ⟨![[49], [50], [51], [52], []], shortDigits_clean, fun _ => 0⟩

theorem digits_clean : ∀ i : Fin 5, ∀ b ∈ (![[], [50], [51], [52], [53]] : Fin 5 → List UInt8) i,
    b ≠ 0 ∧ b ≠ 44 := by decide +kernel

/-- The string `,2,3,4,5`. -/
def withoutFirst : SentVersions := ⟨![[], [50], [51], [52], [53]], digits_clean, fun _ => 0⟩

theorem letters_clean : ∀ _i : Fin 5, ∀ b ∈ List.replicate 20 (65 : UInt8), b ≠ 0 ∧ b ≠ 44 := by
  intro _ b hb
  rw [List.eq_of_mem_replicate hb]
  decide

/-- Five versions of 20 letters. -/
def twentyLetters : SentVersions := ⟨fun _ => List.replicate 20 65, letters_clean, fun _ => 0⟩

end Pmu
