import Mathlib.Data.BitVec
import Mathlib.Data.Nat.Digits.Defs

/-!
# IP addresses and networks

`IpAddr` is the standard library's address type, `IpNetwork` the network type of
the `ipnetwork` crate: an address of either family with a prefix length that is
at most the width of the family. A network keeps the host bits it was given.
-/

namespace NicAutoswitch

inductive IpVersion where
  | v4
  | v6
  deriving Repr, DecidableEq

inductive IpAddr where
  | v4 (bits : BitVec 32)
  | v6 (bits : BitVec 128)
  deriving Repr, DecidableEq

namespace IpAddr

def version : IpAddr → IpVersion
  | .v4 _ => .v4
  | .v6 _ => .v6

def isIpv4 : IpAddr → Bool
  | .v4 _ => true
  | .v6 _ => false

/-- Whether two addresses of one family agree on their leading `len` bits. -/
def agree (len : ℕ) : IpAddr → IpAddr → Bool
  | .v4 a, .v4 b => a >>> (32 - len) == b >>> (32 - len)
  | .v6 a, .v6 b => a >>> (128 - len) == b >>> (128 - len)
  | _, _ => false

/-- Dotted decimal notation. -/
def displayV4 (a : BitVec 32) : String :=
  let octet (i : ℕ) : ℕ := a.toNat / 256 ^ i % 256
  s!"{octet 3}.{octet 2}.{octet 1}.{octet 0}"

def segments (a : BitVec 128) : List ℕ :=
  (List.range 8).map fun i => a.toNat / 65536 ^ (7 - i) % 65536

/-- Lower case hexadecimal without leading zeros. -/
def hex (n : ℕ) : String := String.ofList (Nat.toDigits 16 n)

/-- The first of the longest runs of zero segments, as start and length. -/
def longestZeroRun (segs : List ℕ) : ℕ × ℕ :=
  let go := fun (acc : ℕ × (ℕ × ℕ) × (ℕ × ℕ)) (seg : ℕ) =>
    let (i, current, longest) := acc
    if seg = 0 then
      let current := if current.2 = 0 then (i, 1) else (current.1, current.2 + 1)
      (i + 1, current, if longest.2 < current.2 then current else longest)
    else (i + 1, (0, 0), longest)
  (segs.foldl go (0, (0, 0), (0, 0))).2.2

/-- The standard library's text form of an IPv6 address. -/
def displayV6 (a : BitVec 128) : String :=
  let segs := segments a
  let text (l : List ℕ) : String := String.intercalate ":" (l.map hex)
  if a.toNat / 2 ^ 32 = 0xffff then s!"::ffff:{displayV4 (a.setWidth 32)}"
  else
    let (start, len) := longestZeroRun segs
    if 1 < len then s!"{text (segs.take start)}::{text (segs.drop (start + len))}"
    else text segs

def display : IpAddr → String
  | .v4 a => displayV4 a
  | .v6 a => displayV6 a

instance : ToString IpAddr := ⟨display⟩

end IpAddr

/-- A network of one family: `Ipv4Network` at width 32, `Ipv6Network` at width 128. -/
structure IpNet (w : ℕ) where
  ip : BitVec w
  prefixLen : ℕ
  prefixLen_le : prefixLen ≤ w
  deriving Repr, DecidableEq

inductive IpNetwork where
  | v4 (net : IpNet 32)
  | v6 (net : IpNet 128)
  deriving Repr, DecidableEq

namespace IpNetwork

def ip : IpNetwork → IpAddr
  | .v4 net => .v4 net.ip
  | .v6 net => .v6 net.ip

def prefixLen : IpNetwork → ℕ
  | .v4 net => net.prefixLen
  | .v6 net => net.prefixLen

def version : IpNetwork → IpVersion
  | .v4 _ => .v4
  | .v6 _ => .v6

def isIpv4 : IpNetwork → Bool
  | .v4 _ => true
  | .v6 _ => false

/-- `IpNetwork::new`: the length must fit the family. This is also what printing
an address, appending a length and parsing the text yields. -/
def new? : IpAddr → ℕ → Option IpNetwork
  | .v4 a, len => if h : len ≤ 32 then some (.v4 ⟨a, len, h⟩) else none
  | .v6 a, len => if h : len ≤ 128 then some (.v6 ⟨a, len, h⟩) else none

/-- Membership compares the leading bits within one family. -/
def contains (n : IpNetwork) (a : IpAddr) : Bool := n.ip.agree n.prefixLen a

def display (n : IpNetwork) : String := s!"{n.ip}/{n.prefixLen}"

instance : ToString IpNetwork := ⟨display⟩

end IpNetwork

/-! ### Lengths of networks that are written out -/

theorem len0_v4 : 0 ≤ 32 := Nat.zero_le 32
theorem len0_v6 : 0 ≤ 128 := Nat.zero_le 128
theorem len8_v4 : 8 ≤ 32 := by decide
theorem len12_v4 : 12 ≤ 32 := by decide
theorem len16_v4 : 16 ≤ 32 := by decide
theorem len8_v6 : 8 ≤ 128 := by decide

end NicAutoswitch
