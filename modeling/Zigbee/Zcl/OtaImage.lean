import Zigbee.Lib.Bytes

/-!
# The header of an OTA file

`zigbee-zcl/src/clusters/ota_image.rs`: the fields of the header, three of them optional, and its parser.

* `OtaImageHeader.parse` — the parser.
* `OtaImageHeader.parse_headerLength` — a parsed header has the length that its bytes declare.
-/

namespace Zigbee.Zcl

open Bytes

/-- `OTA_MAGIC` -/
def OTA_MAGIC : UInt32 := 0x0BEEF11E

/-- `OTA_HEADER_MIN_SIZE` -/
def OTA_HEADER_MIN_SIZE : Nat := 56

structure OtaHeaderFieldControl where
  securityCredential : Bool
  deviceSpecific : Bool
  hardwareVersions : Bool
  deriving DecidableEq

def OtaHeaderFieldControl.fromU16 (val : UInt16) : OtaHeaderFieldControl where
  securityCredential := decide (val &&& 0x01 ≠ 0)
  deviceSpecific := decide (val &&& 0x02 ≠ 0)
  hardwareVersions := decide (val &&& 0x04 ≠ 0)

structure OtaImageHeader where
  magic : UInt32
  headerVersion : UInt16
  headerLength : UInt16
  fieldControl : OtaHeaderFieldControl
  manufacturerCode : UInt16
  imageType : UInt16
  fileVersion : UInt32
  stackVersion : UInt16
  headerString : Vector UInt8 32
  totalImageSize : UInt32
  securityCredentialVersion : Option UInt8
  /-- The eight bytes of the address, the lowest first. -/
  upgradeFileDestination : Option (Vector UInt8 8)
  minHardwareVersion : Option UInt16
  maxHardwareVersion : Option UInt16
  deriving DecidableEq

inductive OtaImageError where
  | tooShort
  | badMagic
  | unsupportedVersion
  | badHeaderLength
  | imageTooLarge
  deriving DecidableEq

namespace OtaImageHeader

/-- The credential version, and the offset behind it. -/
def credentialVersionAt (present : Bool) (data : Buf) (offset : Nat) : Except OtaImageError (Option UInt8 × Nat) :=
  if present = true then
    if data.length ≤ offset then .error .tooShort else .ok (some (u8At data offset), offset + 1)
  else .ok (none, offset)

def destinationAt (present : Bool) (data : Buf) (offset : Nat) : Except OtaImageError (Option (Vector UInt8 8) × Nat) :=
  if present = true then
    if data.length < offset + 8 then .error .tooShort else .ok (some (arrayAt 8 data offset), offset + 8)
  else .ok (none, offset)

def hardwareVersionsAt (present : Bool) (data : Buf) (offset : Nat) :
    Except OtaImageError ((Option UInt16 × Option UInt16) × Nat) :=
  if present = true then
    if data.length < offset + 4 then .error .tooShort
    else .ok ((some (u16At data offset), some (u16At data (offset + 2))), offset + 4)
  else .ok ((none, none), offset)

/-- The fields behind the fixed part, in the order of their control bits. -/
def optionalFields (fieldControl : OtaHeaderFieldControl) (data : Buf) :
    Except OtaImageError ((Option UInt8 × Option (Vector UInt8 8) × Option UInt16 × Option UInt16) × Nat) := do
  let (credential, offset) ← credentialVersionAt fieldControl.securityCredential data 56
  let (destination, offset) ← destinationAt fieldControl.deviceSpecific data offset
  let (versions, offset) ← hardwareVersionsAt fieldControl.hardwareVersions data offset
  pure ((credential, destination, versions), offset)

/-- `OtaImageHeader::parse` -/
def parse (data : Buf) : Except OtaImageError (OtaImageHeader × Nat) :=
  if data.length < OTA_HEADER_MIN_SIZE then .error .tooShort
  else if u32At data 0 ≠ OTA_MAGIC then .error .badMagic
  else if u16At data 4 ≠ 0x0100 then .error .unsupportedVersion
  else
    match optionalFields (.fromU16 (u16At data 8)) data with
    | .error e => .error e
    | .ok ((credential, destination, minVersion, maxVersion), offset) =>
      if (u16At data 6).toNat < offset then .error .badHeaderLength
      else
        .ok ({ magic := u32At data 0
               headerVersion := u16At data 4
               headerLength := u16At data 6
               fieldControl := .fromU16 (u16At data 8)
               manufacturerCode := u16At data 10
               imageType := u16At data 12
               fileVersion := u32At data 14
               stackVersion := u16At data 18
               headerString := arrayAt 32 data 20
               totalImageSize := u32At data 52
               securityCredentialVersion := credential
               upgradeFileDestination := destination
               minHardwareVersion := minVersion
               maxHardwareVersion := maxVersion }, (u16At data 6).toNat)

theorem parse_headerLength {data : Buf} {r : OtaImageHeader × Nat} (h : parse data = .ok r) :
    r.1.headerLength = u16At data 6 := by
  unfold parse at h
  repeat' split at h
  case h_2.isFalse =>
    cases h
    rfl
  all_goals cases h

end OtaImageHeader

end Zigbee.Zcl
