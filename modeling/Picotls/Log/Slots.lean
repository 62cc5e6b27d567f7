import Picotls.Connection
import Picotls.Foundation.Rounding
import Mathlib.Algebra.Order.Field.Rat

/-!
# The slots of the log and the connections that they follow

A slot of the log takes the connections to some names from some addresses, and a sample of them: a
connection draws a number once, and a slot takes it if the number is below the ratio of the slot.
Numbers in single precision are the rational numbers that they denote. Which slots take a connection
is computed again when the slots have changed.
-/

namespace Picotls.Log

open Foundation

/-- The bits of a significand in single precision. -/
abbrev floatBits : ℕ := 24

/-- The address `in6addr_any`. -/
abbrev in6addrAny : Bytes := zeros 16

/-- A slot that is connected: the names and addresses that it takes, which are all if there are
none, and its ratio. -/
structure Slot where
  snis : List Bytes
  addresses : List Bytes
  sampleRatio : ℚ

/-- What the log knows of a connection, with the slots that take it as of a generation. -/
structure ConnState where
  random : ℚ
  address : Bytes
  activeConns : Fin 32 → Bool
  generation : UInt64

/-- A number drawn from 32 bits is converted to single precision and divided by 2 ^ 32, which is
exact. -/
def sampleNumber (r : UInt32) : ℚ := (roundToBits floatBits r.toNat : ℚ) / 2 ^ 32

/-- A new connection from an address. -/
def ptlsLogInitConnState (r : UInt32) (address : Bytes) : ConnState :=
  { random := sampleNumber r, address := address, activeConns := fun _ => false, generation := 0 }

def isInStringlist (list : List Bytes) (searchFor : Option Bytes) : Bool :=
  if list = [] then true
  else match searchFor with
    | none => false
    | some name => list.contains name

def isInAddresslist (list : List Bytes) (searchFor : Bytes) : Bool :=
  if list = [] then true else if searchFor = in6addrAny then false else list.contains searchFor

/-- The slot takes the connection. -/
def Slot.takes (slot : Slot) (sni : Option Bytes) (conn : ConnState) : Bool :=
  decide (conn.random < slot.sampleRatio) && isInStringlist slot.snis sni &&
    isInAddresslist slot.addresses conn.address

/-- Find out again which slots take a connection, if they have changed. -/
def ptlsLogRecalcConn (generation : UInt64) (conns : Fin 32 → Option Slot) (sni : Option Bytes)
    (conn : ConnState) : ConnState :=
  if conn.generation ≠ generation then
    { conn with
      activeConns := fun i => (conns i).any fun slot => slot.takes sni conn
      generation := generation }
  else conn

end Picotls.Log
