import BoundedStore.Path.Address
import BoundedStore.Word

/-!
# Store configuration

* `Config` : capacity in megabytes, checksum granularity, address. `Config.default` stands for what is not given;
* `Config.fault?` : the first thing that is wrong with a configuration, in the order granularity, capacity, address;
* `Config.capacityBytes` : the capacity, held at the largest 64-bit count when it would exceed it.
-/

namespace BoundedStore

/-- How a store is to be built. -/
structure Config where
  sizeMb : UInt64
  bytesPerChecksum : UInt32
  uri : String
  deriving DecidableEq

/-- What is wrong with a configuration. -/
inductive ConfigFault where
  | zeroGranularity
  | sizeTooLarge (sizeMb : UInt64)
  | address (e : StoreError)
  deriving DecidableEq

def ConfigFault.message : ConfigFault → String
  | .zeroGranularity => "bytes_per_checksum must be positive"
  | .sizeTooLarge sizeMb => s!"size_mb {sizeMb} overflows a byte count"
  | .address e => e.message

namespace Config

/-- 100 MB, a checksum for every 512 bytes, and the default address. -/
def default : Config := ⟨100, 512, Address.default.text⟩

/-- The bytes of a megabyte. -/
def megabyte : UInt64 := 1048576

/-- The capacity in bytes. -/
def capacityBytes (c : Config) : UInt64 := Word.mulCapped c.sizeMb megabyte

/-- The first fault of a configuration. -/
def fault? (c : Config) : Option ConfigFault :=
  if c.bytesPerChecksum = 0 then some .zeroGranularity
  else
    match Word.mul? c.sizeMb megabyte with
    | none => some (.sizeTooLarge c.sizeMb)
    | some _ =>
      match Address.parse c.uri with
      | .error e => some (.address e)
      | .ok _ => none

end Config
end BoundedStore
