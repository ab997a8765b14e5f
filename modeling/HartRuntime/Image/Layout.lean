namespace HartRuntime.Image

/-- Memory as 32-bit words, lowest address first. Addresses count bytes and are
    multiples of four. -/
abbrev Words := List UInt32

/-- The word at an address; outside the memory there are only zeros. -/
def Words.load (memory : Words) (address : Nat) : UInt32 :=
  memory.getD (address / 4) 0

/-- Memory with the word at an address replaced; a store outside is lost. -/
def Words.store (memory : Words) (address : Nat) (word : UInt32) : Words :=
  memory.set (address / 4) word

/-- Where the data of an image is loaded, where it runs, and where its zeroed data lies.
    Regions end before their end address, and one that ends before it starts is empty. -/
structure Layout where
  load : Nat
  dataStart : Nat
  dataEnd : Nat
  bssStart : Nat
  bssEnd : Nat
  deriving DecidableEq

/-- The symbols by which the linker tells the layout. -/
inductive Symbol where
  | dataLoad
  | dataStart
  | dataEnd
  | bssStart
  | bssEnd
  deriving DecidableEq

def Symbol.name : Symbol → String
  | .dataLoad => "_data_load_address"
  | .dataStart => "_sdata"
  | .dataEnd => "_edata"
  | .bssStart => "_sbss"
  | .bssEnd => "_ebss"

namespace Layout

/-- The layout that the addresses of the linker's symbols tell. -/
def locate (address : Symbol → Nat) : Layout where
  load := address .dataLoad
  dataStart := address .dataStart
  dataEnd := address .dataEnd
  bssStart := address .bssStart
  bssEnd := address .bssEnd

/-- Copies words upwards, one at a time, while the target is below its end. -/
def copyWords (memory : Words) (source target stop : Nat) : Words :=
  if target < stop then
    copyWords (memory.store target (memory.load source)) (source + 4) (target + 4) stop
  else memory
termination_by stop - target

/-- Zeroes words upwards while they are below the end. -/
def zeroWords (memory : Words) (target stop : Nat) : Words :=
  if target < stop then zeroWords (memory.store target 0) (target + 4) stop else memory
termination_by stop - target

/-- What start-up does to the memory of an image. -/
inductive Step where
  | copyData
  | zeroBss
  deriving DecidableEq

/-- Data that already lies where it runs is not copied. -/
def perform (layout : Layout) (memory : Words) : Step → Words
  | .copyData =>
    if layout.load = layout.dataStart then memory
    else copyWords memory layout.load layout.dataStart layout.dataEnd
  | .zeroBss => zeroWords memory layout.bssStart layout.bssEnd

/-- The memory after each step of a sequence. -/
def trace (layout : Layout) (memory : Words) : List Step → List Words
  | [] => []
  | step :: rest =>
    let after := layout.perform memory step
    after :: trace layout after rest

end Layout

end HartRuntime.Image
