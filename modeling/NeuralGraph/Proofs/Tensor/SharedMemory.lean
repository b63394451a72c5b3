import NeuralGraph.Proofs.Tensor.CopyOnWrite

/-! Constants in shared memory. Copies of a constant point to one block of values, which counts
them. A write changes the block that a constant points to, after moving the constant to a block of
its own where another one points to the same. -/

namespace NeuralGraph

/-- Values in memory, and the number of constants that point to them. -/
structure Block where
  data : Array Float32
  owners : Nat

structure Pointer where
  info : TensorInfo
  address : Nat

structure SharedMemory where
  blocks : Array Block := #[]
  names : List (String × Pointer) := []

namespace SharedMemory

open ConstantTable (Call)

def find? (memory : SharedMemory) (name : String) : Option Pointer := memory.names.lookup name

def retain (memory : SharedMemory) (address : Nat) : SharedMemory :=
  { memory with
    blocks := memory.blocks.modify address fun block => { block with owners := block.owners + 1 } }

def release (memory : SharedMemory) (address : Nat) : SharedMemory :=
  { memory with
    blocks := memory.blocks.modify address fun block => { block with owners := block.owners - 1 } }

/-- Forgets a name and what it points to. -/
def drop (memory : SharedMemory) (name : String) : SharedMemory :=
  match memory.find? name with
  | none => memory
  | some pointer =>
    { memory.release pointer.address with names := memory.names.filter (·.1 != name) }

/-- Points a name to a block that counts it already, in place of what it pointed to. -/
def point (memory : SharedMemory) (name : String) (pointer : Pointer) : SharedMemory :=
  { memory.drop name with names := (name, pointer) :: (memory.drop name).names }

/-- Points a name to a new block. -/
def place (memory : SharedMemory) (name : String) (value : ConstantValue) : SharedMemory :=
  point { memory with blocks := memory.blocks.push ⟨value.data, 1⟩ } name
    ⟨value.info, memory.blocks.size⟩

def clone (memory : SharedMemory) (source name : String) : SharedMemory :=
  match memory.find? source with
  | none => memory
  | some pointer => (memory.retain pointer.address).point name pointer

/-- Moves a name to a copy of its block unless it is the only one that points there. -/
def detach (memory : SharedMemory) (name : String) : SharedMemory :=
  match memory.find? name with
  | none => memory
  | some pointer =>
    match memory.blocks[pointer.address]? with
    | none => memory
    | some block =>
      if block.owners = 1 then memory else memory.place name ⟨pointer.info, block.data⟩

/-- Replaces one element of a block. -/
def store (memory : SharedMemory) (address index : Nat) (value : Float32) : SharedMemory :=
  { memory with
    blocks := memory.blocks.modify address fun block =>
      { block with data := block.data.setIfInBounds index value } }

def write (memory : SharedMemory) (name : String) (index : Nat) (value : Float32) :
    SharedMemory :=
  let detached := memory.detach name
  match detached.find? name with
  | none => detached
  | some pointer => detached.store pointer.address index value

def serve (memory : SharedMemory) : Call → SharedMemory
  | .new name info data => ((ConstantValue.new? info data).map (memory.place name)).getD memory
  | .filled name extents value =>
    ((ConstantValue.filled? extents value).map (memory.place name)).getD memory
  | .clone source name => memory.clone source name
  | .write name index value => memory.write name index value
  | .drop name => memory.drop name

def run (calls : List Call) : SharedMemory := calls.foldl serve {}

/-- What a program sees of a name. -/
def value? (memory : SharedMemory) (name : String) : Option ConstantValue := do
  let pointer ← memory.find? name
  let block ← memory.blocks[pointer.address]?
  return ⟨pointer.info, block.data⟩

/-- Whether two names point to one block. -/
def Aliased (memory : SharedMemory) (a b : String) : Prop :=
  ∃ first second, memory.find? a = some first ∧ memory.find? b = some second ∧
    first.address = second.address

/-- The number of names that point to a block. -/
def users (memory : SharedMemory) (address : Nat) : Nat :=
  memory.names.countP (·.2.address == address)

variable {memory : SharedMemory} {name : String} {pointer : Pointer} {address : Nat}

theorem drop_of_none (absent : memory.find? name = none) : memory.drop name = memory := by
  simp [drop, absent]

theorem find?_drop (other : String) :
    (memory.drop name).find? other = if other = name then none else memory.find? other := by
  cases found : memory.find? name with
  | none =>
    rw [drop_of_none found]
    split
    · rename_i same
      rw [same, found]
    · rfl
  | some pointer =>
    simp only [drop, found]
    exact lookup_filter_ne name other memory.names

theorem find?_point (other : String) : (memory.point name pointer).find? other =
    if other = name then some pointer else memory.find? other := by
  rw [point, find?, lookup_cons_eq_ite]
  by_cases same : other = name
  · rw [if_pos same, if_pos same]
  · rw [if_neg same, if_neg same]
    exact (find?_drop other).trans (if_neg same)

/-- Dropping a name and counting a block leave the values in memory. -/
theorem data_drop (address : Nat) : ((memory.drop name).blocks[address]?).map Block.data =
    (memory.blocks[address]?).map Block.data := by
  unfold drop
  split
  · rfl
  · simp only [release, Array.getElem?_modify]
    split <;> simp [Function.comp_def]

@[simp] theorem size_drop : (memory.drop name).blocks.size = memory.blocks.size := by
  unfold drop
  split <;> simp [release]

theorem data_store (memory : SharedMemory) (address index : Nat) (value : Float32) (other : Nat) :
    ((memory.store address index value).blocks[other]?).map Block.data =
      ((memory.blocks[other]?).map Block.data).map fun data =>
        if address = other then data.setIfInBounds index value else data := by
  simp only [store, Array.getElem?_modify, Option.map_map]
  split <;> simp [Function.comp_def]

/-- Every name points to a block once, and every block counts the names that point to it, one of
them before it does. -/
structure Counted (memory : SharedMemory) (ahead : Option Nat) : Prop where
  distinct : (memory.names.map Prod.fst).Nodup
  inside : ∀ name pointer, memory.find? name = some pointer →
    pointer.address < memory.blocks.size
  owners : ∀ address block, memory.blocks[address]? = some block →
    block.owners = memory.users address + if ahead = some address then 1 else 0

namespace Counted

variable {ahead : Option Nat}

/-- The users of a block are a name that points to it and the others that do. -/
theorem users_eq (counted : memory.Counted ahead) (found : memory.find? name = some pointer)
    (address : Nat) : memory.users address =
      (memory.drop name).users address + if pointer.address = address then 1 else 0 := by
  have split := perm_of_lookup counted.distinct found
  simp only [users, SharedMemory.drop, found, split.countP_eq, List.countP_cons, beq_iff_eq]

theorem drop (counted : memory.Counted ahead) (name : String) :
    (memory.drop name).Counted ahead := by
  cases found : memory.find? name with
  | none => rwa [drop_of_none found]
  | some pointer =>
    refine ⟨?_, fun other kept there => ?_, fun address block held => ?_⟩
    · simp only [SharedMemory.drop, found]
      exact (List.filter_sublist.map Prod.fst).nodup counted.distinct
    · rw [find?_drop] at there
      rw [size_drop]
      split at there
      · cases there
      · exact counted.inside other kept there
    · have users := counted.users_eq found address
      simp only [SharedMemory.drop, found, release, Array.getElem?_modify] at held
      by_cases here : pointer.address = address
      · rw [if_pos here, Option.map_eq_some_iff] at held
        obtain ⟨before, there, rfl⟩ := held
        have owners := counted.owners address before there
        rw [if_pos here] at users
        simp only [owners, users]
        omega
      · rw [if_neg here] at held users
        rw [counted.owners address block held, users]
        omega

theorem point (counted : memory.Counted (some pointer.address))
    (inside : pointer.address < memory.blocks.size) (name : String) :
    (memory.point name pointer).Counted none := by
  have dropped := counted.drop name
  refine ⟨?_, fun other kept there => ?_, fun address block held => ?_⟩
  · rw [SharedMemory.point, List.map_cons, List.nodup_cons]
    refine ⟨fun member => ?_, dropped.distinct⟩
    obtain ⟨⟨other, kept⟩, there, same⟩ := List.mem_map.mp member
    cases same
    have found := (mem_iff_lookup dropped.distinct).mp there
    have gone : (memory.drop name).find? name = none := by rw [find?_drop, if_pos rfl]
    rw [SharedMemory.find?, found] at gone
    cases gone
  · have size : (memory.point name pointer).blocks.size = memory.blocks.size := size_drop
    rw [find?_point] at there
    rw [size]
    split at there
    · cases there
      exact inside
    · exact counted.inside other kept there
  · have owners := dropped.owners address block held
    simp only [SharedMemory.users, SharedMemory.point, List.countP_cons, beq_iff_eq] at owners ⊢
    simp [owners]

/-- A block that nothing points to yet. -/
theorem push (counted : memory.Counted none) (data : Array Float32) :
    SharedMemory.Counted { memory with blocks := memory.blocks.push ⟨data, 1⟩ }
      (some memory.blocks.size) where
  distinct := counted.distinct
  inside other kept there := by
    have inside := counted.inside other kept there
    simp only [Array.size_push]
    omega
  owners address block held := by
    have held : (memory.blocks.push ⟨data, 1⟩)[address]? = some block := held
    change block.owners = memory.users address + _
    rw [Array.getElem?_push] at held
    split at held
    · rename_i last
      cases held
      have unused : memory.users address = 0 := by
        refine List.countP_eq_zero.mpr fun entry member => ?_
        have inside := counted.inside entry.1 entry.2
          ((mem_iff_lookup counted.distinct).mp member)
        have apart : entry.2.address ≠ address := by omega
        simpa using apart
      rw [unused, if_pos (congrArg some last.symm)]
    · rename_i other
      have elsewhere : memory.blocks.size ≠ address := fun same => other same.symm
      simpa [elsewhere] using counted.owners address block held

theorem place (counted : memory.Counted none) (name : String) (value : ConstantValue) :
    (memory.place name value).Counted none :=
  (counted.push value.data).point (by simp) name

theorem retain (counted : memory.Counted none) (address : Nat) :
    (memory.retain address).Counted (some address) where
  distinct := counted.distinct
  inside other kept there := by simpa [SharedMemory.retain] using counted.inside other kept there
  owners other block held := by
    change block.owners = memory.users other + _
    simp only [SharedMemory.retain, Array.getElem?_modify] at held
    by_cases here : address = other
    · rw [if_pos here, Option.map_eq_some_iff] at held
      obtain ⟨before, there, rfl⟩ := held
      simpa [here] using counted.owners other before there
    · rw [if_neg here] at held
      simpa [here] using counted.owners other block held

theorem clone (counted : memory.Counted none) (source name : String) :
    (memory.clone source name).Counted none := by
  unfold SharedMemory.clone
  split
  · exact counted
  · rename_i pointer found
    have inside := counted.inside source pointer found
    exact (counted.retain pointer.address).point (by simpa [SharedMemory.retain] using inside) name

theorem detach (counted : memory.Counted none) (name : String) :
    (memory.detach name).Counted none := by
  unfold SharedMemory.detach
  split
  · exact counted
  · split
    · exact counted
    · split
      · exact counted
      · exact counted.place name _

theorem write (counted : memory.Counted none) (name : String) (index : Nat) (value : Float32) :
    (memory.write name index value).Counted none := by
  have detached := counted.detach name
  simp only [SharedMemory.write]
  split
  · exact detached
  · refine ⟨detached.distinct, fun other kept there => ?_, fun address block held => ?_⟩
    · simpa [store] using detached.inside other kept there
    · change block.owners = (memory.detach name).users address + _
      simp only [store, Array.getElem?_modify] at held
      split at held
      · obtain ⟨before, there, rfl⟩ := Option.map_eq_some_iff.mp held
        exact detached.owners address before there
      · exact detached.owners address block held

/-- A block with one owner belongs to the only name that points to it. -/
theorem owners_eq_one_iff (counted : memory.Counted none)
    (found : memory.find? name = some pointer) {block : Block}
    (held : memory.blocks[pointer.address]? = some block) :
    block.owners = 1 ↔ ∀ other, other ≠ name → ¬memory.Aliased name other := by
  have users := counted.users_eq found pointer.address
  have owners : block.owners = (memory.drop name).users pointer.address + 1 := by
    simpa [users] using counted.owners _ block held
  have distinct := (counted.drop name).distinct
  rw [owners, Nat.add_eq_right, SharedMemory.users, List.countP_eq_zero]
  constructor
  · rintro none_left other apart ⟨first, second, here, there, same⟩
    rw [found] at here
    cases here
    have kept : (memory.drop name).find? other = some second := by
      rw [find?_drop, if_neg apart, there]
    have absent := none_left (other, second) (mem_of_lookup kept)
    simp [same] at absent
  · intro alone entry member points
    have kept := (mem_iff_lookup distinct).mp member
    have kept : (memory.drop name).find? entry.1 = some entry.2 := kept
    rw [find?_drop] at kept
    split at kept
    · cases kept
    · rename_i apart
      exact alone entry.1 apart ⟨pointer, entry.2, found, kept, (beq_iff_eq.mp points).symm⟩

end Counted

end SharedMemory

def Constant.pointer (constant : Constant) : Pointer := ⟨constant.info, constant.storage⟩

namespace SharedMemory

open ConstantTable (Call)

variable {memory : SharedMemory} {table : ConstantTable} {constant : Constant} {name : String}

/-- Memory that holds the constants of a table: each name points to the storage of its constant,
and there are its values. -/
structure Backs (memory : SharedMemory) (table : ConstantTable) : Prop where
  size : memory.blocks.size = table.nextStorage
  pointers : ∀ name, memory.find? name = (table.find? name).map Constant.pointer
  data : ∀ name constant, table.find? name = some constant →
    (memory.blocks[constant.storage]?).map Block.data = some constant.data

namespace Backs

theorem aliased_iff (backs : memory.Backs table) (a b : String) :
    memory.Aliased a b ↔ table.Shares a b := by
  simp only [Aliased, backs.pointers, Option.map_eq_some_iff, ConstantTable.Shares,
    Constant.sharesStorageWith, beq_iff_eq]
  constructor
  · rintro ⟨_, _, ⟨first, here, rfl⟩, ⟨second, there, rfl⟩, same⟩
    exact ⟨first, second, here, there, same⟩
  · rintro ⟨first, second, here, there, same⟩
    exact ⟨_, _, ⟨first, here, rfl⟩, ⟨second, there, rfl⟩, same⟩

theorem value?_eq (backs : memory.Backs table) (name : String) :
    memory.value? name = (table.find? name).map Constant.value := by
  simp only [value?, backs.pointers name]
  cases found : table.find? name with
  | none => rfl
  | some constant =>
    obtain ⟨block, held, same⟩ := Option.map_eq_some_iff.mp (backs.data name constant found)
    simp [Constant.pointer, Constant.value, held, same]

theorem drop (backs : memory.Backs table) (name : String) :
    (memory.drop name).Backs (table.erase name) where
  size := by rw [size_drop]; exact backs.size
  pointers other := by
    rw [find?_drop, ConstantTable.find?_erase]
    split
    · rfl
    · exact backs.pointers other
  data other constant found := by
    rw [ConstantTable.find?_erase] at found
    rw [data_drop]
    split at found
    · cases found
    · exact backs.data other constant found

theorem point (backs : memory.Backs table) (name : String)
    (held : (memory.blocks[constant.storage]?).map Block.data = some constant.data) :
    (memory.point name constant.pointer).Backs (table.insert name constant) where
  size := size_drop.trans backs.size
  pointers other := by
    rw [find?_point, ConstantTable.find?_insert]
    split
    · rfl
    · exact backs.pointers other
  data other kept found := by
    change ((memory.drop name).blocks[kept.storage]?).map Block.data = _
    rw [data_drop]
    rw [ConstantTable.find?_insert] at found
    split at found
    · cases found
      exact held
    · exact backs.data other kept found

/-- A block for a new storage. -/
theorem push (backs : memory.Backs table) (data : Array Float32) :
    Backs { memory with blocks := memory.blocks.push ⟨data, 1⟩ } table.allocate.2 where
  size := by simp [ConstantTable.allocate, backs.size]
  pointers := backs.pointers
  data other kept found := by
    have held := backs.data other kept found
    obtain ⟨block, there, same⟩ := Option.map_eq_some_iff.mp held
    have inside := (Array.getElem?_eq_some_iff.mp there).1
    simp [Array.getElem?_push, Nat.ne_of_lt inside, there, same]

theorem place (backs : memory.Backs table) (name : String)
    (fresh : constant.storage = table.nextStorage) :
    (memory.place name constant.value).Backs (table.allocate.2.insert name constant) := by
  have address : memory.blocks.size = constant.storage := backs.size.trans fresh.symm
  have pointed : (⟨constant.value.info, memory.blocks.size⟩ : Pointer) = constant.pointer := by
    rw [address]
    rfl
  rw [SharedMemory.place, pointed]
  refine (backs.push constant.data).point name ?_
  simp [← address]

theorem retain (backs : memory.Backs table) (address : Nat) :
    (memory.retain address).Backs table where
  size := by simpa [SharedMemory.retain] using backs.size
  pointers := backs.pointers
  data other kept found := by
    rw [← backs.data other kept found]
    simp only [SharedMemory.retain, Array.getElem?_modify]
    split <;> simp [Function.comp_def]

theorem clone (backs : memory.Backs table) (source name : String) :
    (memory.clone source name).Backs ((table.clone? source name).getD table) := by
  simp only [SharedMemory.clone, ConstantTable.clone?, backs.pointers source]
  cases found : table.find? source with
  | none => exact backs
  | some constant =>
    have retained := backs.retain constant.storage
    exact retained.point name (retained.data source constant found)

variable {values : ConstantValues} {partition : NameClasses}

/-- Counting owners and looking for another name in the same storage come to the same. -/
theorem detach (backs : memory.Backs table) (counted : memory.Counted none)
    (shows : table.Shows values partition) (name : String) :
    (memory.detach name).Backs (table.detach name) := by
  simp only [SharedMemory.detach, ConstantTable.detach, backs.pointers name]
  cases found : table.find? name with
  | none => exact backs
  | some constant =>
    obtain ⟨block, held, same⟩ := Option.map_eq_some_iff.mp (backs.data name constant found)
    have pointed : memory.find? name = some constant.pointer := by
      rw [backs.pointers, found]
      rfl
    have shared : table.isShared name constant = true ↔ block.owners ≠ 1 := by
      rw [shows.isShared_iff found, ne_eq, counted.owners_eq_one_iff pointed held]
      simp only [backs.aliased_iff, not_forall, not_not, exists_prop]
    simp only [Option.map_some, Constant.pointer, held]
    by_cases single : block.owners = 1
    · simp only [shared, single, ne_eq, not_true_eq_false, if_false]
      exact backs
    · simp only [shared, ne_eq, single, not_false_eq_true, if_true, same]
      have moved : (constant.movedTo table.nextStorage).storage = table.nextStorage := rfl
      exact backs.place name moved

/-- A write to the block that a constant points to reaches no constant in another storage. -/
theorem write (backs : memory.Backs table) (counted : memory.Counted none)
    (shows : table.Shows values partition) (name : String) (index : Nat) (value : Float32) :
    (memory.write name index value).Backs (table.write name index value) := by
  have detached := backs.detach counted shows name
  simp only [SharedMemory.write, ConstantTable.write, detached.pointers name]
  cases found : (table.detach name).find? name with
  | none => exact detached
  | some constant =>
    simp only [Option.map_some, Constant.pointer]
    have here := data_store (memory.detach name) constant.storage index value
      constant.storage
    have elsewhere (other : String) (kept : Constant) (apart : other ≠ name)
        (there : (table.detach name).find? other = some kept) :
        (((memory.detach name).store constant.storage index value).blocks[kept.storage]?).map
          Block.data = some kept.data := by
      have alone := shows.detach_alone apart
      have different : constant.storage ≠ kept.storage := fun same =>
        alone ⟨constant, kept, found, there, by simpa [Constant.sharesStorageWith] using same⟩
      simp [data_store, different, detached.data other kept there]
    rw [detached.data name constant found, Option.map_some, if_pos rfl] at here
    cases written : constant.write? index value with
    | none =>
      have unchanged := congrArg ConstantValue.data (Constant.write_value_of_none written)
      refine ⟨by simpa [store] using detached.size, detached.pointers, fun other kept there => ?_⟩
      by_cases same : other = name
      · rw [same, found] at there
        cases there
        exact here.trans (congrArg some unchanged)
      · exact elsewhere other kept same there
    | some rewritten =>
      obtain ⟨storage, value_eq⟩ := Constant.write_value_of_some written
      have pointer : rewritten.pointer = constant.pointer := by
        rw [Constant.pointer, Constant.pointer, storage]
        exact congrArg (Pointer.mk · constant.storage) (congrArg ConstantValue.info value_eq)
      refine ⟨?_, fun other => ?_, fun other kept there => ?_⟩
      · simpa [store, ConstantTable.insert, ConstantTable.erase] using detached.size
      · rw [ConstantTable.find?_insert]
        split
        · rename_i same
          rw [same, Option.map_some, pointer, ← Option.map_some, ← found]
          exact detached.pointers name
        · exact detached.pointers other
      · rw [ConstantTable.find?_insert] at there
        split at there
        · cases there
          rw [storage]
          exact here.trans (congrArg some (congrArg ConstantValue.data value_eq).symm)
        · rename_i apart
          exact elsewhere other kept apart there

/-- A constructor that accepts its values gives them a block of their own. -/
theorem make (backs : memory.Backs table) (name : String)
    (constructor : StorageId → Except Error Constant) {value? : Option ConstantValue}
    (makes : (constructor table.nextStorage).toOption.map Constant.value = value?)
    (placed : ∀ constant, constructor table.nextStorage = .ok constant →
      constant.storage = table.nextStorage) :
    SharedMemory.Backs ((value?.map (memory.place name)).getD memory)
      (table.make name constructor) := by
  subst makes
  simp only [ConstantTable.make, ConstantTable.allocate]
  cases made : constructor table.nextStorage with
  | error _ => exact backs
  | ok constant => exact backs.place name (placed constant made)

theorem serve (backs : memory.Backs table) (counted : memory.Counted none)
    (shows : table.Shows values partition) (call : Call) :
    (memory.serve call).Backs (table.serve call) := by
  cases call with
  | new name info data =>
    exact backs.make name (Constant.new · info data) (Constant.value_new _ info data)
      fun _ => Constant.storage_of_new
  | filled name extents value =>
    exact backs.make name (Constant.filled · extents value) (Constant.value_filled _ extents value)
      fun _ => Constant.storage_of_filled
  | clone source name => exact backs.clone source name
  | write name index value => exact backs.write counted shows name index value
  | drop name => exact backs.drop name

end Backs

theorem Counted.serve (counted : memory.Counted none) (call : Call) :
    (memory.serve call).Counted none := by
  cases call with
  | new name info data =>
    simp only [SharedMemory.serve]
    cases ConstantValue.new? info data with
    | none => exact counted
    | some value => exact counted.place name value
  | filled name extents value =>
    simp only [SharedMemory.serve]
    cases ConstantValue.filled? extents value with
    | none => exact counted
    | some value => exact counted.place name value
  | clone source name => exact counted.clone source name
  | write name index value => exact counted.write name index value
  | drop name => exact counted.drop name

/-- Shared memory, the table of constants, their values and the classes of their names, after the
same calls. -/
theorem run_backs (calls : List Call) : (run calls).Backs (ConstantTable.run calls) := by
  have follows : ∀ (calls : List Call) (memory : SharedMemory) (table : ConstantTable)
      (values : ConstantValues) (partition : NameClasses), memory.Backs table →
      memory.Counted none → table.Shows values partition →
      (calls.foldl serve memory).Backs (calls.foldl ConstantTable.serve table) := by
    intro calls
    induction calls with
    | nil => exact fun _ _ _ _ backs _ _ => backs
    | cons call calls ih =>
      intro memory table values partition backs counted shows
      exact ih _ _ _ _ (backs.serve counted shows call) (counted.serve call)
        (ConstantTable.shows_serve shows call)
  refine follows calls {} {} _ {} ?_ ?_ ConstantTable.shows_empty
  · exact ⟨rfl, fun _ => rfl, fun _ _ found => nomatch found⟩
  · refine ⟨List.nodup_nil, fun _ _ found => (nomatch found), fun address block held => ?_⟩
    simp at held

end SharedMemory

namespace ConstantTable

/-- Constants behave as values. After any calls each name stands for the value it would have if
copying a constant copied its data, with one element for each position of its shape, and two names
share storage exactly when the calls have left them in one class. Memory in which copies point to
one block, and a write changes the block of a constant that is its only owner, shows the same
values and the same sharing. -/
theorem run_behaves_as_values (calls : List Call) :
    (∀ name, ((run calls).find? name).map Constant.value = ConstantValues.run calls name) ∧
    (∀ entry ∈ (run calls).entries, entry.2.data.size = entry.2.info.elementCount) ∧
    (∀ a b, (run calls).Shares a b ↔ (NameClasses.run calls).Joined a b) ∧
    (∀ name, (SharedMemory.run calls).value? name = ConstantValues.run calls name) ∧
    ∀ a b, (SharedMemory.run calls).Aliased a b ↔ (NameClasses.run calls).Joined a b := by
  have shows := shows_run calls
  have backs := SharedMemory.run_backs calls
  refine ⟨shows.value, fun entry _ => entry.2.size_eq, shows.shares, fun name => ?_,
    fun a b => (backs.aliased_iff a b).trans (shows.shares a b)⟩
  rw [backs.value?_eq, shows.value]

end ConstantTable

end NeuralGraph
