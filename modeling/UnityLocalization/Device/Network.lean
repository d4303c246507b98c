import UnityLocalization.Library.JavaText

/-!
# The local network address

`getLocalInetAddress` walks over the network interfaces and the addresses of each.
Both loops share one result, and each address of an interface overwrites it.
-/

namespace UnityLocalization
namespace Device

open JavaText

structure SocketException

/-- A null reference has been followed. -/
structure NullPointerException
  deriving DecidableEq

/-- An IPv6 address, written with colons in every textual form. -/
structure Inet6Address where
  isLoopbackAddress : Bool
  hostAddress : JavaString
  colon : ':' ∈ hostAddress
  deriving DecidableEq

inductive InetAddress
  | inet4 (first second third fourth : UInt8)
  | inet6 (address : Inet6Address)
  deriving DecidableEq

namespace InetAddress

def isLoopbackAddress : InetAddress -> Bool
  | inet4 first _ _ _ => first == 127
  | inet6 address => address.isLoopbackAddress

/-- The dotted decimal text of an IPv4 address. -/
def getHostAddress : InetAddress -> JavaString
  | inet4 first second third fourth =>
      Nat.toDigits 10 first.toNat ++ '.' :: Nat.toDigits 10 second.toNat ++
        '.' :: Nat.toDigits 10 third.toNat ++ '.' :: Nat.toDigits 10 fourth.toNat
  | inet6 address => address.hostAddress

/-- An IPv4 address outside the loopback network. -/
def IsLocal : InetAddress -> Prop
  | inet4 first _ _ _ => first ≠ 127
  | inet6 _ => False

instance : DecidablePred IsLocal
  | inet4 first _ _ _ => inferInstanceAs (Decidable (first ≠ 127))
  | inet6 _ => inferInstanceAs (Decidable False)

/-- The test of the inner loop. -/
def accepted (nextElement : InetAddress) : Bool :=
  !nextElement.isLoopbackAddress && indexOf [':'] nextElement.getHostAddress == none

theorem colon_not_mem_toDigits (value : Nat) : ':' ∉ Nat.toDigits 10 value := by
  intro present
  exact absurd (Nat.isDigit_of_mem_toDigits (by decide) (by decide) present) (by decide)

/-- Only IPv4 addresses are written without a colon. -/
theorem accepted_iff (address : InetAddress) : address.accepted = true ↔ address.IsLocal := by
  rw [accepted, Bool.and_eq_true, Bool.not_eq_true', beq_iff_eq,
    indexOf_singleton_eq_none_iff]
  cases address with
  | inet4 first second third fourth =>
      simp [isLoopbackAddress, IsLocal, getHostAddress, colon_not_mem_toDigits]
  | inet6 address => simp [IsLocal, getHostAddress, address.colon]

end InetAddress

structure NetworkInterface where
  inetAddresses : List InetAddress
  hardwareAddress : Except SocketException (Option (List UInt8))

/-- What `NetworkInterface.getNetworkInterfaces` returns: an enumeration, or null
where there is no interface. -/
abbrev InterfaceListing := Except SocketException (Option (List NetworkInterface))

/-- The inner loop over the addresses of one interface. -/
def addressLoop : List InetAddress -> Option InetAddress -> Option InetAddress
  | [], inetAddress => inetAddress
  | nextElement :: inetAddresses, _ =>
      addressLoop inetAddresses (if nextElement.accepted then some nextElement else none)

/-- The outer loop, which goes on while the result is null. -/
def interfaceLoop : List NetworkInterface -> Option InetAddress -> Option InetAddress
  | [], inetAddress => inetAddress
  | nextElement :: networkInterfaces, inetAddress =>
      match addressLoop nextElement.inetAddresses inetAddress with
      | none => interfaceLoop networkInterfaces none
      | some inetAddress => some inetAddress

def getLocalInetAddress (listing : InterfaceListing) :
    Except NullPointerException (Option InetAddress) :=
  match listing with
  | .error _ => .ok none
  | .ok none => .error {}
  | .ok (some networkInterfaces) => .ok (interfaceLoop networkInterfaces none)

/-! ## What the loops find -/

/-- The last address of an interface decides. -/
theorem addressLoop_eq (addresses : List InetAddress) (start : Option InetAddress) :
    addressLoop addresses start =
      match addresses.getLast? with
      | none => start
      | some last => if last.accepted then some last else none := by
  induction addresses generalizing start with
  | nil => rfl
  | cons address addresses inductionHypothesis =>
      rw [addressLoop, inductionHypothesis, List.getLast?_cons]
      cases addresses.getLast? <;> rfl

/-- The address an interface gives: its last one, if it is accepted. -/
def NetworkInterface.answer (interface : NetworkInterface) : Option InetAddress :=
  interface.inetAddresses.getLast?.filter InetAddress.accepted

theorem interfaceLoop_eq (interfaces : List NetworkInterface) :
    interfaceLoop interfaces none = interfaces.findSome? NetworkInterface.answer := by
  induction interfaces with
  | nil => rfl
  | cons interface interfaces inductionHypothesis =>
      have last : addressLoop interface.inetAddresses none = interface.answer := by
        rw [addressLoop_eq, NetworkInterface.answer]
        cases interface.inetAddresses.getLast? with
        | none => rfl
        | some address => cases test : address.accepted <;> simp [Option.filter, test]
      rw [interfaceLoop, last, List.findSome?_cons, inductionHypothesis]
      cases interface.answer <;> rfl

theorem NetworkInterface.answer_eq_some_iff
    {interface : NetworkInterface} {address : InetAddress} :
    interface.answer = some address ↔
      interface.inetAddresses.getLast? = some address ∧ address.IsLocal := by
  rw [NetworkInterface.answer, Option.filter_eq_some_iff, InetAddress.accepted_iff]

/-- Some interface has the local IPv4 address. -/
def HasAddress (interfaces : List NetworkInterface) (address : InetAddress) : Prop :=
  ∃ interface ∈ interfaces, address ∈ interface.inetAddresses ∧ address.IsLocal

/-- The last address of some interface is a local IPv4 address. -/
def EndsLocal (interfaces : List NetworkInterface) : Prop :=
  ∃ interface ∈ interfaces, ∃ last,
    interface.inetAddresses.getLast? = some last ∧ last.IsLocal

/-- A local IPv4 address of an interface is returned, and null only where no interface
has one. -/
def FindsLocalAddress (networkInterfaces : Option (List NetworkInterface)) : Prop :=
  ∃ inetAddress, getLocalInetAddress (.ok networkInterfaces) = .ok inetAddress ∧
    match inetAddress with
    | some address => HasAddress (networkInterfaces.getD []) address
    | none => ∀ address, ¬HasAddress (networkInterfaces.getD []) address

/-- What is found is an address of the list. -/
theorem hasAddress_of_interfaceLoop
    {interfaces : List NetworkInterface} {address : InetAddress}
    (found : interfaceLoop interfaces none = some address) :
    EndsLocal interfaces ∧ HasAddress interfaces address := by
  rw [interfaceLoop_eq] at found
  obtain ⟨interface, member, answer⟩ := List.exists_of_findSome?_eq_some found
  obtain ⟨last, isLocal⟩ := NetworkInterface.answer_eq_some_iff.mp answer
  exact ⟨⟨interface, member, address, last, isLocal⟩,
    ⟨interface, member, List.mem_of_getLast? last, isLocal⟩⟩

theorem interfaceLoop_eq_none_iff (interfaces : List NetworkInterface) :
    interfaceLoop interfaces none = none ↔ ¬EndsLocal interfaces := by
  rw [interfaceLoop_eq, List.findSome?_eq_none_iff]
  constructor
  · rintro silent ⟨interface, member, last, atEnd, isLocal⟩
    have answer := NetworkInterface.answer_eq_some_iff.mpr ⟨atEnd, isLocal⟩
    rw [silent interface member] at answer
    cases answer
  · intro absent interface member
    cases answer : interface.answer with
    | none => rfl
    | some last =>
        obtain ⟨atEnd, isLocal⟩ := NetworkInterface.answer_eq_some_iff.mp answer
        exact absurd ⟨interface, member, last, atEnd, isLocal⟩ absent

/-- A local address is found exactly if there is none to find or the last address of
some interface is one, given that the enumeration is not null. -/
theorem findsLocalAddress_iff (networkInterfaces : Option (List NetworkInterface)) :
    FindsLocalAddress networkInterfaces ↔
      networkInterfaces ≠ none ∧
        ((∀ address, ¬HasAddress (networkInterfaces.getD []) address) ∨
          EndsLocal (networkInterfaces.getD [])) := by
  cases networkInterfaces with
  | none => simp [FindsLocalAddress, getLocalInetAddress]
  | some interfaces =>
      simp only [FindsLocalAddress, getLocalInetAddress, Except.ok.injEq, exists_eq_left',
        Option.getD_some, ne_eq, reduceCtorEq, not_false_eq_true, true_and]
      cases found : interfaceLoop interfaces none with
      | none =>
          have notLast := (interfaceLoop_eq_none_iff interfaces).mp found
          exact (or_iff_left notLast).symm
      | some address =>
          obtain ⟨atEnd, present⟩ := hasAddress_of_interfaceLoop found
          exact iff_of_true present (.inr atEnd)

/-- An interface whose IPv4 address stands before its IPv6 address. -/
def dualStack : NetworkInterface where
  inetAddresses :=
    [.inet4 192 168 1 2,
      .inet6 ⟨false, ['f', 'e', '8', '0', ':', ':', '1'], by decide⟩]
  hardwareAddress := .ok none

theorem not_findsLocalAddress_dualStack : ¬FindsLocalAddress (some [dualStack]) := by
  rintro ⟨inetAddress, returned, found⟩
  have missed : getLocalInetAddress (.ok (some [dualStack])) = .ok none := by decide
  cases missed.symm.trans returned
  exact found (.inet4 192 168 1 2) ⟨dualStack, List.mem_singleton_self _,
    List.mem_cons_self, by decide⟩

end Device
end UnityLocalization
