import Mikanos.Xhci.Trb

/-!
# USB requests, endpoints and received memory

The small record types of `setupdata.hpp` and `endpoint.hpp`, and the view the
driver has of memory that a device or the controller writes.

Received memory is not part of the driver's state: what a pointer of a
completed transfer points to is decided by the device.  `Dma` gives, for one
call into the driver, the object behind each buffer pointer and the TRB behind
each TRB pointer that does not lead into one of the driver's own rings.  An
object has a length, and reading beyond it is a `Fault`.
-/

namespace Mikanos.Usb

/-- `struct SetupData`. -/
structure SetupData where
  requestType : BitVec 8
  request : BitVec 8
  value : BitVec 16
  index : BitVec 16
  length : BitVec 16
  deriving DecidableEq, Repr

/-- `request_type.bits`, from the high bit down. -/
def requestTypeBits (direction : BitVec 1) (type : BitVec 2) (recipient : BitVec 5) : BitVec 8 :=
  direction ++ type ++ recipient

/-- `request::kGetDescriptor`. -/
def kGetDescriptor : BitVec 8 := 6

/-- `request::kSetConfiguration`. -/
def kSetConfiguration : BitVec 8 := 9

/-- `request::kSetProtocol`. -/
def kSetProtocol : BitVec 8 := 11

/-- `class EndpointID`: an endpoint number and a direction in one `int`. -/
structure EndpointID where
  addr : Int
  deriving DecidableEq, Repr

namespace EndpointID

/-- `EndpointID{ep_num, dir_in}`, for an `ep_num` that is not negative. -/
def ofNumber (epNum : Nat) (dirIn : Bool) : EndpointID := ⟨2 * epNum + if dirIn then 1 else 0⟩

/-- `EndpointID::Address()`. -/
def address (e : EndpointID) : Int := e.addr

/-- `EndpointID::Number()`. -/
def number (e : EndpointID) : Int := e.addr / 2

/-- `EndpointID::IsIn()`. -/
def isIn (e : EndpointID) : Bool := e.addr % 2 == 1

end EndpointID

/-- `kDefaultControlPipeID`. -/
def kDefaultControlPipeID : EndpointID := .ofNumber 0 true

/-- `enum class EndpointType`. -/
inductive EndpointType where
  | kControl
  | kIsochronous
  | kBulk
  | kInterrupt
  deriving DecidableEq, Repr

/-- `static_cast<EndpointType>` of a two-bit field. -/
def EndpointType.ofBits (b : BitVec 2) : EndpointType :=
  if b = 0 then .kControl else if b = 1 then .kIsochronous else if b = 2 then .kBulk
  else .kInterrupt

/-- `struct EndpointConfig`. -/
structure EndpointConfig where
  epId : EndpointID
  epType : EndpointType
  maxPacketSize : Nat
  interval : Nat
  deriving DecidableEq, Repr

/-- Memory written by the controller and by devices, as one call finds it. -/
structure Dma where
  /-- The TRB at an address outside the driver's rings. -/
  trb : Addr → Xhci.Trb
  /-- The bytes of the object a pointer points into, from the pointer on. -/
  bytes : Addr → List (BitVec 8)

/-- `p[i]`. -/
def Dma.byte (m : Dma) (p : Addr) (i : Nat) : Except Fault (BitVec 8) :=
  if p = nullptr then .error .nullDereference
  else
    match (m.bytes p)[i]? with
    | some b => .ok b
    | none => .error .outOfBounds

end Mikanos.Usb
