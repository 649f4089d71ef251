/-!
# Numbers on the command line

Decimal digits with an optional sign in front. `unsigned?` takes no minus; `signed?` takes either sign and at most 64
bits.
-/

namespace BoundedStore.CommandLine

/-- The number that decimal digits write. -/
def digits? (cs : List Char) : Option Nat :=
  if cs ≠ [] ∧ cs.all fun c => '0' ≤ c ∧ c ≤ '9' then some (cs.foldl (fun n c => n * 10 + (c.toNat - 48)) 0) else none

/-- A count of 64 bits. -/
def unsigned? (text : String) : Option UInt64 :=
  let n? := match text.toList with
    | '+' :: cs => digits? cs
    | cs => digits? cs
  n?.bind fun n => if n < 0x1_0000_0000_0000_0000 then some (UInt64.ofNat n) else none

/-- An integer of 64 bits. -/
def signed? (text : String) : Option Int :=
  let n? : Option Int := match text.toList with
    | '+' :: cs => (digits? cs).map fun n => n
    | '-' :: cs => (digits? cs).map fun n => -n
    | cs => (digits? cs).map fun n => n
  n?.bind fun n => if -0x8000_0000_0000_0000 ≤ n ∧ n < 0x8000_0000_0000_0000 then some n else none

/-- A count of 32 bits, read as an integer first. -/
def word? (text : String) : Option UInt32 :=
  (signed? text).bind fun n => if 0 ≤ n ∧ n < 0x1_0000_0000 then some (UInt32.ofNat n.toNat) else none

end BoundedStore.CommandLine
