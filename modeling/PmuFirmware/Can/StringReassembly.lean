import PmuFirmware.Lib.CString
import PmuFirmware.Config.Changes

/-!
# Strings from the charger

The charger sends a string in a header frame with its first four bytes, and in continuation frames
with seven bytes each, numbered from 6. `handle_charger_config` collects them in one buffer. When the
last byte has arrived the buffer goes to the field whose flag the header has set.

Only this part of `handle_charger_config` is modelled: the frames that carry numbers do not touch it.
-/

namespace Pmu

open CLib

/-- The eight bytes of a CAN frame. -/
abbrev Frame := Fin 8 → UInt8

def byteChar (b : UInt8) : Char := Char.ofNat b.toNat

/-- The strings of `chargerConfigCAN` that are sent this way. -/
structure ConfigStrings where
  versionInfo : VersionInfo
  ocppURL : CStr
  wifiSsid : CStr
  wifiPassword : CStr
  mqttBroker : CStr
  serialNumber2 : CStr
  dateTime : CStr

/-- The flags that say where the string goes, in the order in which they are looked at. -/
inductive StringFlag
  | flagVersionInfo | flagOcppUrl | flagPmuInitial | flagString | flagDateTime
  deriving DecidableEq

/-- The globals of the reassembly; `arr` has 100 bytes. -/
structure Reassembly where
  arr : Nat → Char
  i : Nat
  stringLength : UInt8
  prevSequenceNo : Nat
  giveEntrytoPrint : Bool
  flag : StringFlag → Bool
  config : ConfigStrings

/-! ### The buffer -/

namespace Reassembly

/-- `arr[k] = c`, which has no result past the end. -/
def write (k : Nat) (c : Char) (s : Reassembly) : Option Reassembly :=
  if k < 100 then some { s with arr := Function.update s.arr k c } else none

/-- The C string in the buffer. -/
def text (s : Reassembly) : CStr := ((List.range 100).map s.arr).takeWhile (· != NUL)

/-- `arr[i] = b; i++` -/
def push (b : UInt8) (s : Reassembly) : Option Reassembly :=
  (s.write s.i (byteChar b)).map fun s => { s with i := s.i + 1 }

/-- The copying loops: bytes are taken as long as the string is not complete, and `finish` is run when
it is. -/
def takeBytes (finish : Reassembly → Option Reassembly) : List UInt8 → Reassembly → Option Reassembly
  | [], s => some s
  | b :: bs, s =>
    if s.i < s.stringLength.toNat then
      (s.push b).bind fun s =>
        (if s.i = s.stringLength.toNat then finish s else some s).bind (takeBytes finish bs)
    else some s

/-- `arr[i] = '\0'` -/
def terminate (s : Reassembly) : Option Reassembly := s.write s.i NUL

/-- The last byte of a string has arrived in a continuation frame. -/
def complete (s : Reassembly) : Option Reassembly :=
  s.terminate.map fun s => { s with giveEntrytoPrint := true }

end Reassembly

/-! ### The fields -/

/-- `strncpy` into a field of `size` bytes, whose last byte is then set to NUL. -/
def fieldText (size : Nat) (text : CStr) : CStr := text.take (size - 1)

/-- The tokens of a version string, copied one after the other; a missing token copies nothing. -/
def assignVersions (tokens : List CStr) (v : VersionInfo) : VersionInfo where
  hmiVersion := (tokens[0]?).elim v.hmiVersion (fieldText 45)
  lcuVersion := (tokens[1]?).elim v.lcuVersion (fieldText 45)
  mcuVersion := (tokens[2]?).elim v.mcuVersion (fieldText 45)
  evseCommContoller k :=
    (tokens[3 + k.val]?).elim (v.evseCommContoller k) (fieldText 45)
  pmu := v.pmu

def parseWiFiCredentials (receivedString : CStr) (c : ConfigStrings) : ConfigStrings :=
  let tokens := (strtokAll ',' [] (fieldText 100 receivedString)).1
  { c with
    wifiSsid := (tokens[0]?).elim c.wifiSsid (fieldText 50)
    wifiPassword := (tokens[1]?).elim c.wifiPassword (fieldText 100) }

/-- What is done with the complete string. -/
def StringFlag.store (text : CStr) (c : ConfigStrings) : StringFlag → ConfigStrings
  | flagVersionInfo =>
    { c with versionInfo := assignVersions (strtokAll ',' [] text).1 c.versionInfo }
  | flagOcppUrl => { c with ocppURL := fieldText 100 text }
  | flagPmuInitial => parseWiFiCredentials text c
  | flagString => { c with serialNumber2 := fieldText 26 text }
  | flagDateTime => { c with dateTime := fieldText 25 text }

namespace Reassembly

/-- `if (flag == 1 && giveEntrytoPrint == 1)`; the versions are split in the buffer itself. -/
def deliver (s : Reassembly) (flag : StringFlag) : Reassembly :=
  if s.flag flag && s.giveEntrytoPrint then
    { s with
      flag := Function.update s.flag flag false
      giveEntrytoPrint := false
      config := flag.store s.text s.config
      arr := if flag = .flagVersionInfo then
          fun k => (strtokAll ',' [] s.text).2.getD k (s.arr k)
        else s.arr }
  else s

/-- All flags in turn. -/
def deliverAll (s : Reassembly) : Reassembly :=
  [StringFlag.flagVersionInfo, .flagOcppUrl, .flagPmuInitial, .flagString, .flagDateTime].foldl
    deliver s

/-! ### Frames -/

/-- The header: the length is kept in 8 bits. -/
def beginString (finish : Reassembly → Option Reassembly) (data : Frame) (s : Reassembly) :
    Option Reassembly :=
  takeBytes finish [data 4, data 5, data 6, data 7]
    { s with stringLength := UInt8.ofNat ((data 2).toNat * 256 + (data 3).toNat), i := 0 }

def beginFlagged (flag : StringFlag) (data : Frame) (s : Reassembly) : Option Reassembly :=
  beginString some data { s with flag := Function.update s.flag flag true }

/-- A continuation frame; one with the number of the last one is only acknowledged. -/
def continueString (data : Frame) (s : Reassembly) : Option Reassembly :=
  if (data 0).toNat = s.prevSequenceNo then some s
  else
    (takeBytes complete [data 1, data 2, data 3, data 4, data 5, data 6, data 7]
      { s with prevSequenceNo := (data 0).toNat }).map deliverAll

end Reassembly

open Reassembly in
/-- The frames of `handle_charger_config` that carry strings. The broker is copied right after its
header. -/
def handleChargerConfig (data : Frame) (s : Reassembly) : Option Reassembly :=
  if 5 < (data 0).toNat then continueString data s
  else if (data 0).toNat = 5 then
    match (data 1).toNat with
    | 4 => beginFlagged .flagVersionInfo data s
    | 5 => beginFlagged .flagOcppUrl data s
    | 6 => beginFlagged .flagPmuInitial data s
    | 7 => (beginString terminate data s).map fun s =>
        { s with config := { s.config with mqttBroker := fieldText 100 s.text } }
    | 8 => beginFlagged .flagString data s
    | 10 => beginFlagged .flagDateTime data s
    | _ => some s
  else some s

/-- The globals when the board starts. -/
def Reassembly.powerOn (config : ConfigStrings) : Reassembly where
  arr _ := NUL
  i := 0
  stringLength := 0
  prevSequenceNo := 0
  giveEntrytoPrint := false
  flag _ := false
  config := config

end Pmu
