import Mikanos.Lib.BitField

/-!
# Root hub ports

The PORTSC register of a port and the values `Port` writes to it.  Each member
function of `Port` reads the register anew, so a caller that asks twice may get
two different answers; what the reads return is an argument of the handlers in
`Controller`.
-/

namespace Mikanos.Xhci

open BitField

/-- `union PORTSC_Bitmap`. -/
abbrev PortSc := BitVec 32

namespace PortSc

/-- `bits.current_connect_status`, which is `Port::IsConnected()`. -/
def currentConnectStatus (p : PortSc) : Bool := p.getLsbD 0

/-- `bits.port_enabled_disabled`, which is `Port::IsEnabled()`. -/
def portEnabledDisabled (p : PortSc) : Bool := p.getLsbD 1

/-- `bits.port_speed`, which is `Port::Speed()`. -/
def portSpeed (p : PortSc) : BitVec 4 := field p 10 4

/-- `bits.port_reset_change`, which is `Port::IsPortResetChanged()`. -/
def portResetChange (p : PortSc) : Bool := p.getLsbD 21

/-- What `CLEAR_STATUS_BIT` writes back for the change bit `bit`. -/
def clearStatusBit (p : PortSc) (bit : Nat) : PortSc :=
  setField (p &&& 0x0e01c3e0) bit (1 : BitVec 1)

/-- What `Port::ClearPortResetChange()` writes. -/
def clearPortResetChange (p : PortSc) : PortSc := p.clearStatusBit 21

/-- What `Port::Reset()` writes: 1 to PR and CSC. -/
def reset (p : PortSc) : PortSc := (p &&& 0x0e00c3e0) ||| 0x00020010

end PortSc

end Mikanos.Xhci
