import NeuralGraph.Tensor.Constant

/-! Constants under names. Copies share their storage until one of them is written. -/

namespace NeuralGraph

structure ConstantTable where
  entries : List (String × Constant) := []
  nextStorage : StorageId := 0

namespace ConstantTable

def find? (table : ConstantTable) (name : String) : Option Constant := table.entries.lookup name

/-- Takes a storage that no constant of the table uses. -/
def allocate (table : ConstantTable) : StorageId × ConstantTable :=
  (table.nextStorage, { table with nextStorage := table.nextStorage + 1 })

def erase (table : ConstantTable) (name : String) : ConstantTable :=
  { table with entries := table.entries.filter (·.1 != name) }

/-- Binds a name, in place of what it named before. -/
def insert (table : ConstantTable) (name : String) (constant : Constant) : ConstantTable :=
  { table with entries := (name, constant) :: (table.erase name).entries }

/-- A copy shares the storage of its source. -/
def clone? (table : ConstantTable) (source name : String) : Option ConstantTable :=
  (table.find? source).map (table.insert name)

/-- Whether a constant under another name uses the same storage. -/
def isShared (table : ConstantTable) (name : String) (constant : Constant) : Bool :=
  table.entries.any fun entry => entry.1 != name && entry.2.sharesStorageWith constant

/-- Makes the constant under a name the only user of its storage. -/
def detach (table : ConstantTable) (name : String) : ConstantTable :=
  match table.find? name with
  | none => table
  | some constant =>
    if table.isShared name constant then
      let (storage, fresh) := table.allocate
      fresh.insert name (constant.movedTo storage)
    else table

/-- Writes one element; a constant that shares its storage is copied first, even when the
index is out of range. -/
def write (table : ConstantTable) (name : String) (index : Nat) (value : Float32) :
    ConstantTable :=
  let detached := table.detach name
  match detached.find? name with
  | none => detached
  | some constant =>
    match constant.write? index value with
    | none => detached
    | some written => detached.insert name written

/-- The names whose constants share their storage with the given one. -/
def sharing (table : ConstantTable) (constant : Constant) : List String :=
  (table.entries.filter (·.2.sharesStorageWith constant)).map (·.1)

/-- The names whose constants equal the given one. -/
def equal (table : ConstantTable) (constant : Constant) : List String :=
  (table.entries.filter (·.2 == constant)).map (·.1)

end ConstantTable

end NeuralGraph
