import FlowTelemetry.Octets.Cursor
import FlowTelemetry.Text.Decimal

/-!
# Addresses and endpoints

An `Address` is an IPv4 address: four octets, written as four decimal numbers
with dots between them. An `Endpoint` is an address and a port, and is what
one sender is told from another by.

Endpoints are ordered by address first, octet by octet, and by port among
equal addresses. Since octets and ports are bounded this is the order of one
number per endpoint, its `rank`, which makes it plain that the order is
total and that only equal endpoints share a place in it (`rank_inj`).
-/

namespace FlowTelemetry

/-- An IPv4 address. -/
structure Address where
  a : UInt8
  b : UInt8
  c : UInt8
  d : UInt8
  deriving DecidableEq, Repr, Inhabited

namespace Address

/-- The address that stands for no address in particular. -/
def unspecified : Address := ⟨0, 0, 0, 0⟩

/-- The octets of an address in the order in which they are sent. -/
def octets (x : Address) : Octets := [x.a, x.b, x.c, x.d]

/-- The characters of the dotted form. -/
def chars (x : Address) : List Char :=
  Decimal.digits x.a.toNat ++ '.' :: Decimal.digits x.b.toNat ++ '.' ::
    Decimal.digits x.c.toNat ++ '.' :: Decimal.digits x.d.toNat

/-- The dotted form. -/
def text (x : Address) : String := String.ofList x.chars

/-- An octet from its decimal digits. -/
def octet? (cs : List Char) : Option UInt8 := do
  let n ← Decimal.value? cs
  if n < 256 then some (UInt8.ofNat n) else none

/-- The address with the given dotted form. -/
def parse? (s : String) : Option Address :=
  match pieces '.' s.toList with
  | [a, b, c, d] => do return ⟨← octet? a, ← octet? b, ← octet? c, ← octet? d⟩
  | _ => none

/-- The address as one number, in which the first octet counts most. -/
def rank (x : Address) : Nat :=
  x.a.toNat * 0x1000000 + x.b.toNat * 0x10000 + x.c.toNat * 0x100 + x.d.toNat

theorem rank_inj {x y : Address} (h : x.rank = y.rank) : x = y := by
  have := x.a.toNat_lt
  have := x.b.toNat_lt
  have := x.c.toNat_lt
  have := x.d.toNat_lt
  have := y.a.toNat_lt
  have := y.b.toNat_lt
  have := y.c.toNat_lt
  have := y.d.toNat_lt
  simp only [rank] at h
  cases x
  cases y
  simp only [Address.mk.injEq, ← UInt8.toNat_inj] at *
  omega

end Address

/-- Takes the next four octets as an address. -/
def Cursor.address? : Cursor → Option (Address × Cursor)
  | ⟨position, a :: b :: c :: d :: rest⟩ => some (⟨a, b, c, d⟩, ⟨position + 4, rest⟩)
  | _ => none

/-- An address and a port. -/
structure Endpoint where
  address : Address
  port : UInt16
  deriving DecidableEq, Repr, Inhabited

namespace Endpoint

/-- The sender of datagrams that were captured without any addresses. -/
def unspecified : Endpoint := ⟨.unspecified, 0⟩

/-- The address and the port with a colon between them. -/
def text (e : Endpoint) : String :=
  String.ofList (e.address.chars ++ ':' :: Decimal.digits e.port.toNat)

/-- The place of an endpoint in the order of endpoints. -/
def rank (e : Endpoint) : Nat := e.address.rank * 0x10000 + e.port.toNat

theorem rank_inj {x y : Endpoint} (h : x.rank = y.rank) : x = y := by
  have hx := x.port.toNat_lt
  have hy := y.port.toNat_lt
  simp only [rank] at h
  have haddress : x.address = y.address := Address.rank_inj (by omega)
  have hport : x.port = y.port := UInt16.toNat_inj.mp (by omega)
  cases x
  cases y
  simp_all

end Endpoint

end FlowTelemetry
