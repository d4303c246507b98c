import UnityLocalization.Device.Network

/-!
# Where a device takes its identifiers from

The platform answers each question with a value, null or an exception.  The
functions below ask for the number of the telephone, the android id and the hardware
address in the way the version of the platform allows.
-/

namespace UnityLocalization
namespace Device

open JavaText

inductive Permission
  | readExternalStorage
  | writeExternalStorage
  | readPhoneState
  | accessWifiState
  deriving DecidableEq

structure IOException
  deriving DecidableEq

/-- The answers of the telephony service; without a service each call throws. -/
structure TelephonyManager where
  getImei : (slotIndex : Nat) -> Outcome (Option JavaString)
  getMeid : Outcome (Option JavaString)
  getDeviceIdOfSlot : (slotIndex : Nat) -> Outcome (Option JavaString)
  getDeviceId : Outcome (Option JavaString)

structure Context where
  checkSelfPermission : Permission -> Outcome Int
  packageManagerCheckPermission : Permission -> Outcome Int
  telephonyManager : TelephonyManager
  androidId : Outcome (Option JavaString)
  wifiMacAddress : Outcome (Option JavaString)

/-- The lines a command prints and the exception that ends the reading, if any. -/
structure CommandOutput where
  lines : List JavaString
  failure : Option JavaException

/-- How the operations on the file end.  A `flush` that fails has written some of the
characters; nothing that `write` was given reaches the file before. -/
structure Storage where
  openReader : Except IOException Unit
  readLine : Except IOException Unit
  closeReader : Except IOException Unit
  createNewFile : Except IOException Bool
  openWriter : Except IOException Unit
  write : Except IOException Unit
  flush : Except Nat Unit
  closeWriter : Except IOException Unit

structure Platform where
  sdkInt : Nat
  getSerial : Outcome (Option JavaString)
  networkInterfaces : InterfaceListing
  busyboxIfconfig : CommandOutput
  wlan0Address : CommandOutput
  eth0Address : Outcome JavaString
  storage : Storage
  toUpperCase : JavaString -> JavaString
  nullPointerException : JavaException
  stringIndexOutOfBoundsException : JavaException

/-- `"unknown"` -/
def unknown : JavaString := ['u', 'n', 'k', 'n', 'o', 'w', 'n']

/-- The test of the sources: empty or `"unknown"`. -/
def unusable (text : Option JavaString) : Bool := isEmpty text || text == some unknown

theorem unusable_some_iff (text : JavaString) :
    unusable (some text) = true ↔ text = [] ∨ text = unknown := by
  simp [unusable]

variable (platform : Platform) (context : Option Context)

def checkPermission (permission : Permission) : Bool :=
  match context with
  | none => false
  | some context =>
      let answer :=
        if platform.sdkInt ≥ 23 then context.checkSelfPermission permission
        else context.packageManagerCheckPermission permission
      match answer with
      | .ok granted => granted == 0
      | .error _ => false

/-- The context is used where it is checked not to be null before, apart from
`getAndroidId`. -/
def getImeiOrMeid : Outcome (Option JavaString) := do
  if !checkPermission platform context .readPhoneState then return some []
  match context with
  | none => .error platform.nullPointerException
  | some context =>
      let telephonyManager := context.telephonyManager
      if platform.sdkInt ≥ 26 then
        let imei ← telephonyManager.getImei 0
        if !isEmpty imei then return imei
        let imei2 ← telephonyManager.getImei 1
        if !isEmpty imei2 then return imei2
        let meid ← telephonyManager.getMeid
        if !isEmpty meid then return meid
        let serial ← platform.getSerial
        if isEmpty serial then return some []
        return serial
      else if platform.sdkInt ≥ 23 then
        let deviceId ← telephonyManager.getDeviceIdOfSlot 0
        if !isEmpty deviceId then return deviceId
        let deviceId2 ← telephonyManager.getDeviceIdOfSlot 1
        if isEmpty deviceId2 then return some []
        return deviceId2
      else
        let deviceId3 ← telephonyManager.getDeviceId
        if isEmpty deviceId3 then return some []
        return deviceId3

def getAndroidId : Outcome (Option JavaString) :=
  match context with
  | none => .error platform.nullPointerException
  | some context => context.androidId

/-! ## The hardware address -/

/-- The two hexadecimal digits of a byte as `%02X` writes them. -/
def upperHex (byte : UInt8) : JavaString :=
  [Nat.digitChar (byte.toNat / 16), Nat.digitChar (byte.toNat % 16)].map Char.toUpper

def bytesToString (bArr : Option (List UInt8)) : Option JavaString :=
  match bArr with
  | none | some [] => none
  | some bArr => some (bArr.flatMap fun byte => upperHex byte ++ [':']).dropLast

/-- The loop over the interfaces; one whose address cannot be read is passed. -/
def hardwareAddressLoop : List NetworkInterface -> Option JavaString -> Option JavaString
  | [], str => str
  | nextElement :: networkInterfaces, str =>
      match nextElement.hardwareAddress with
      | .error _ => hardwareAddressLoop networkInterfaces str
      | .ok hardwareAddress =>
          match bytesToString hardwareAddress with
          | some text => some text
          | none => hardwareAddressLoop networkInterfaces none

def getMachineHardwareAddress : Option JavaString :=
  match platform.networkInterfaces with
  | .error _ => some []
  | .ok none => none
  | .ok (some networkInterfaces) => hardwareAddressLoop networkInterfaces none

/-- The loop of `callCmd` over the lines of a command. -/
def callCmdLoop (failure : Option JavaException) (str2 : JavaString) :
    (lines : List JavaString) -> (str3 : JavaString) -> Option JavaString
  | [], str3 => if failure.isSome then some str3 else none
  | readLine :: lines, str3 =>
      if (indexOf str2 readLine).isSome then some readLine
      else callCmdLoop failure str2 lines (str3 ++ readLine)

def callCmd (output : CommandOutput) (str2 : JavaString) : Option JavaString :=
  callCmdLoop output.failure str2 output.lines []

/-- `"HWaddr"` -/
def hwAddr : JavaString := ['H', 'W', 'a', 'd', 'd', 'r']

def getLocalMacAddressFromBusybox : Outcome JavaString :=
  match callCmd platform.busyboxIfconfig hwAddr with
  | none => .ok []
  | some callCmd =>
      match indexOf hwAddr callCmd with
      | none => .ok callCmd
      | some index =>
          match substring callCmd (index + 6) (callCmd.length - 1) with
          | some address => .ok address
          | none => .error platform.stringIndexOutOfBoundsException

/-- The colon separated bytes of an address; `toHexString` writes no leading zero. -/
def hexAddress : (hardwareAddress : List UInt8) -> JavaString
  | [] => []
  | byte :: hardwareAddress =>
      let hexString := Nat.toDigits 16 byte.toNat
      let hexString := if hexString.length = 1 then '0' :: hexString else hexString
      match hardwareAddress with
      | [] => hexString
      | _ :: _ => hexString ++ ':' :: hexAddress hardwareAddress

/-- Every exception in `getMacAddress` gives the empty text. -/
def getMacAddress : JavaString :=
  match getLocalInetAddress platform.networkInterfaces, platform.networkInterfaces with
  | .ok (some inetAddress), .ok (some networkInterfaces) =>
      match networkInterfaces.find? fun interface =>
          interface.inetAddresses.contains inetAddress with
      | none => []
      | some interface =>
          match interface.hardwareAddress with
          | .ok (some hardwareAddress) => platform.toUpperCase (hexAddress hardwareAddress)
          | _ => []
  | _, _ => []

def getMacBySystemInterface : Option JavaString :=
  match context with
  | none => some []
  | some androidContext =>
      if checkPermission platform context .accessWifiState then
        match androidContext.wifiMacAddress with
        | .ok macAddress => macAddress
        | .error _ => some []
      else some []

/-- Every exception in `getMac0` gives the empty text; `substring(0, 17)` throws on a
shorter one. -/
def getMac0 : JavaString :=
  match platform.wlan0Address.lines, platform.wlan0Address.failure with
  | [], some _ => []
  | lines, _ =>
      let str2 := (lines.head?.map trim).getD []
      if !isEmpty (some str2) then str2
      else
        match platform.eth0Address with
        | .error _ => []
        | .ok text => (substring (platform.toUpperCase text) 0 17).getD []

/-- `"02:00:00:00:00:00"` -/
def placeholderAddress : JavaString :=
  ['0', '2', ':', '0', '0', ':', '0', '0', ':', '0', '0', ':', '0', '0', ':', '0', '0']

def getMac : Outcome (Option JavaString) := do
  if context.isNone then return some []
  if platform.sdkInt < 23 then
    let macBySystemInterface := getMacBySystemInterface platform context
    if isEmpty macBySystemInterface then return some []
    return macBySystemInterface
  else if platform.sdkInt < 24 then
    let mac0 := getMac0 platform
    if isEmpty (some mac0) then return some []
    return some mac0
  else
    let machineHardwareAddress := getMachineHardwareAddress platform
    if !isEmpty machineHardwareAddress then return machineHardwareAddress
    let localMacAddressFromBusybox ← getLocalMacAddressFromBusybox platform
    if !isEmpty (some localMacAddressFromBusybox) then
      return some localMacAddressFromBusybox
    let macAddress := getMacAddress platform
    if isEmpty (some macAddress) || placeholderAddress == macAddress then
      let macBySystemInterface2 := getMacBySystemInterface platform context
      if isEmpty macBySystemInterface2 then return some []
      return macBySystemInterface2
    return some macAddress

end Device
end UnityLocalization
