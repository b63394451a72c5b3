import NeuralGraph.Proofs.Lookup
import NeuralGraph.Tensor.ConstantTable

/-! Constants behave as values. A program that makes, copies, writes and drops constants under
names cannot tell the sharing of storage from copies made at once, and two of its constants share
exactly as long as neither has been written since one was copied from the other. -/

namespace NeuralGraph.ConstantTable

/-- What a program does with the constants that it names. -/
inductive Call where
  | new (name : String) (info : TensorInfo) (data : Array Float32)
  | filled (name : String) (extents : List Extent) (value : Float32)
  | clone (source name : String)
  | write (name : String) (index : Nat) (value : Float32)
  | drop (name : String)

/-- Names what a constructor makes in a storage of its own; a constructor that refuses leaves
everything as it was. -/
def make (table : ConstantTable) (name : String)
    (constructor : StorageId → Except Error Constant) : ConstantTable :=
  let (storage, allocated) := table.allocate
  match constructor storage with
  | .ok constant => allocated.insert name constant
  | .error _ => table

def serve (table : ConstantTable) : Call → ConstantTable
  | .new name info data => table.make name (Constant.new · info data)
  | .filled name extents value => table.make name (Constant.filled · extents value)
  | .clone source name => (table.clone? source name).getD table
  | .write name index value => table.write name index value
  | .drop name => table.erase name

def run (calls : List Call) : ConstantTable := calls.foldl serve {}

/-- Whether two names stand for constants in one storage. -/
def Shares (table : ConstantTable) (a b : String) : Prop :=
  ∃ first second, table.find? a = some first ∧ table.find? b = some second ∧
    first.sharesStorageWith second = true

end ConstantTable

/-- What a program sees of a constant. -/
structure ConstantValue where
  info : TensorInfo
  data : Array Float32

namespace ConstantValue

/-- The value that the constructor takes over, if it accepts the number of elements. -/
def new? (info : TensorInfo) (data : Array Float32) : Option ConstantValue :=
  if data.size = info.elementCount ∧ info.shape.isStorable = true then some { info, data } else none

def filled? (extents : List Extent) (value : Float32) : Option ConstantValue :=
  new? { shape := ⟨extents⟩ } (Array.replicate (Shape.mk extents).elementCount value)

/-- The value with one element replaced; there is nothing to replace past the end. -/
def write (constant : ConstantValue) (index : Nat) (value : Float32) : ConstantValue :=
  { constant with data := constant.data.setIfInBounds index value }

end ConstantValue

def Constant.value (constant : Constant) : ConstantValue := ⟨constant.info, constant.data⟩

namespace Constant

variable {constant made : Constant} {storage : StorageId}

theorem value_new (storage : StorageId) (info : TensorInfo) (data : Array Float32) :
    (new storage info data).toOption.map value = ConstantValue.new? info data := by
  unfold new ConstantValue.new?
  by_cases fits : data.size = info.elementCount ∧ info.shape.isStorable = true
  · rw [dif_pos fits, if_pos fits]
    rfl
  · rw [dif_neg fits, if_neg fits]
    split <;> rfl

theorem value_filled (storage : StorageId) (extents : List Extent) (fill : Float32) :
    (filled storage extents fill).toOption.map value = ConstantValue.filled? extents fill := by
  unfold filled ConstantValue.filled? ConstantValue.new?
  by_cases storable : (Shape.mk extents).isStorable = true
  · simp [storable, TensorInfo.elementCount, Except.toOption, value]
  · simp [storable, Except.toOption]

theorem storage_of_new {info : TensorInfo} {data : Array Float32}
    (success : new storage info data = .ok made) : made.storage = storage := by
  unfold new at success
  split at success
  · cases success
    rfl
  · split at success <;> cases success

theorem storage_of_filled {extents : List Extent} {fill : Float32}
    (success : filled storage extents fill = .ok made) : made.storage = storage := by
  unfold filled at success
  split at success <;> cases success
  rfl

theorem write_value_of_none {index : Nat} {element : Float32}
    (outside : constant.write? index element = none) :
    constant.value.write index element = constant.value := by
  have past : ¬index < constant.data.size := fun inside => by simp [write?, inside] at outside
  simp [ConstantValue.write, value, Array.setIfInBounds, past]

/-- A write in place keeps the storage. -/
theorem write_value_of_some {index : Nat} {element : Float32}
    (written : constant.write? index element = some made) :
    made.storage = constant.storage ∧ made.value = constant.value.write index element := by
  unfold write? at written
  split at written
  · rename_i inside
    cases written
    simp [ConstantValue.write, value, Array.setIfInBounds, inside]
  · cases written

end Constant

/-- Names that stand for values. Nothing is shared: a copy is another value. -/
abbrev ConstantValues := String → Option ConstantValue

namespace ConstantValues

open ConstantTable (Call)

def bind (values : ConstantValues) (name : String) (value : ConstantValue) : ConstantValues :=
  fun other => if other = name then some value else values other

def remove (values : ConstantValues) (name : String) : ConstantValues :=
  fun other => if other = name then none else values other

def serve (values : ConstantValues) : Call → ConstantValues
  | .new name info data => ((ConstantValue.new? info data).map (values.bind name)).getD values
  | .filled name extents value =>
    ((ConstantValue.filled? extents value).map (values.bind name)).getD values
  | .clone source name => ((values source).map (values.bind name)).getD values
  | .write name index value =>
    ((values name).map fun constant => values.bind name (constant.write index value)).getD values
  | .drop name => values.remove name

def run (calls : List Call) : ConstantValues := calls.foldl serve fun _ => none

theorem bind_same {values : ConstantValues} {name : String} {value : ConstantValue}
    (same : values name = some value) : values.bind name value = values := by
  funext other
  rw [bind]
  split
  · rename_i here
    rw [here, same]
  · rfl

end ConstantValues

/-- Names gathered in classes that have no name in common. -/
structure NameClasses where
  classes : List (List String) := []
  distinct : classes.flatten.Nodup := by simp

namespace NameClasses

open ConstantTable (Call)

variable {partition : NameClasses} {a b name source : String}

/-- Whether two names are in one class. -/
def Joined (partition : NameClasses) (a b : String) : Prop :=
  ∃ members ∈ partition.classes, a ∈ members ∧ b ∈ members

def remove (partition : NameClasses) (name : String) : NameClasses where
  classes := partition.classes.map (List.filter (· != name))
  distinct := by
    rw [← List.filter_flatten]
    exact partition.distinct.filter _

theorem not_mem_remove : name ∉ (partition.remove name).classes.flatten := by
  simp [remove]

/-- Gives a name a class of its own. -/
def isolate (partition : NameClasses) (name : String) : NameClasses where
  classes := [name] :: (partition.remove name).classes
  distinct := List.nodup_cons.mpr ⟨not_mem_remove, (partition.remove name).distinct⟩

/-- Puts a name beside another one, where that one is. -/
def besides (source name : String) (members : List String) : List String :=
  if source ∈ members then name :: members else members

private theorem mem_flatten_besides {classes : List (List String)} {other : String}
    (member : other ∈ (classes.map (besides source name)).flatten) :
    other = name ∨ other ∈ classes.flatten := by
  simp only [List.mem_flatten, List.mem_map] at member ⊢
  obtain ⟨_, ⟨members, there, rfl⟩, inside⟩ := member
  unfold besides at inside
  split at inside
  · exact (List.mem_cons.mp inside).imp_right fun old => ⟨members, there, old⟩
  · exact .inr ⟨members, there, inside⟩

/-- A name that is in no class gets into one class at most. -/
private theorem nodup_besides (classes : List (List String)) (distinct : classes.flatten.Nodup)
    (absent : name ∉ classes.flatten) :
    (classes.map (besides source name)).flatten.Nodup := by
  induction classes with
  | nil => simp
  | cons members rest ih =>
    rw [List.flatten_cons, List.nodup_append] at distinct
    obtain ⟨own, others, apart⟩ := distinct
    simp only [List.flatten_cons, List.mem_append, not_or] at absent
    rw [List.map_cons, List.flatten_cons]
    by_cases here : source ∈ members
    · -- the source is in no later class, so that these stay as they are
      have later : rest.map (besides source name) = rest := by
        refine (List.map_congr_left fun class' there => ?_).trans (List.map_id rest)
        have elsewhere : source ∉ class' := fun again =>
          apart source here source (List.mem_flatten_of_mem there again) rfl
        simp [besides, elsewhere]
      rw [later, besides, if_pos here, List.cons_append, List.nodup_cons, List.mem_append, not_or]
      exact ⟨absent, List.nodup_append.mpr ⟨own, others, apart⟩⟩
    · rw [besides, if_neg here, List.nodup_append]
      refine ⟨own, ih others absent.2, fun member inside other outside same => ?_⟩
      subst same
      rcases mem_flatten_besides outside with rfl | old
      · exact absent.1 inside
      · exact apart member inside member old rfl

/-- Moves a name to the class that another one is in. -/
def join (partition : NameClasses) (source name : String) : NameClasses :=
  if source = name then partition
  else {
    classes := (partition.remove name).classes.map (besides source name)
    distinct := nodup_besides _ (partition.remove name).distinct not_mem_remove }

/-- Whether the class of a name has another member. -/
def hasOthers (partition : NameClasses) (name : String) : Bool :=
  partition.classes.any fun members => decide (name ∈ members) && members.any (· != name)

def serve (partition : NameClasses) : Call → NameClasses
  | .new name info data =>
    if (ConstantValue.new? info data).isSome then partition.isolate name else partition
  | .filled name extents value =>
    if (ConstantValue.filled? extents value).isSome then partition.isolate name else partition
  | .clone source name =>
    if source ∈ partition.classes.flatten then partition.join source name else partition
  | .write name _ _ => if partition.hasOthers name then partition.isolate name else partition
  | .drop name => partition.remove name

def run (calls : List Call) : NameClasses := calls.foldl serve {}

theorem joined_remove :
    (partition.remove name).Joined a b ↔ a ≠ name ∧ b ≠ name ∧ partition.Joined a b := by
  simp only [Joined, remove, List.mem_map, exists_exists_and_eq_and, List.mem_filter, bne_iff_ne]
  grind

theorem joined_isolate : (partition.isolate name).Joined a b ↔
    (a = name ∧ b = name) ∨ (a ≠ name ∧ b ≠ name ∧ partition.Joined a b) := by
  rw [← joined_remove]
  simp [Joined, isolate]

/-- Once moved, a name stands where the other one stands. -/
theorem joined_join : (partition.join source name).Joined a b ↔
    partition.Joined (if a = name then source else a) (if b = name then source else b) := by
  by_cases same : source = name
  · simp only [join, same]
    grind
  · simp only [join, if_neg same, Joined, remove, List.map_map, List.mem_map,
      exists_exists_and_eq_and]
    have moved (members : List String) (other : String) :
        other ∈ (besides source name ∘ List.filter (· != name)) members ↔
          (if other = name then source else other) ∈ members := by
      simp only [Function.comp, besides]
      grind
    simp only [moved]

theorem joined_self : partition.Joined a a ↔ a ∈ partition.classes.flatten := by
  simp [Joined]

theorem hasOthers_iff :
    partition.hasOthers name = true ↔ ∃ other, other ≠ name ∧ partition.Joined name other := by
  simp only [hasOthers, Joined, List.any_eq_true, Bool.and_eq_true, decide_eq_true_eq, bne_iff_ne]
  grind

end NameClasses

namespace ConstantTable

variable {table : ConstantTable} {values : ConstantValues} {partition : NameClasses}
variable {constant : Constant} {name source a b : String}

theorem find?_erase (other : String) :
    (table.erase name).find? other = if other = name then none else table.find? other :=
  lookup_filter_ne name other table.entries

theorem find?_insert (other : String) :
    (table.insert name constant).find? other =
      if other = name then some constant else table.find? other := by
  rw [find?, insert, lookup_cons_eq_ite]
  by_cases same : other = name
  · rw [if_pos same, if_pos same]
  · rw [if_neg same, if_neg same]
    exact (find?_erase other).trans (if_neg same)

/-- The storage that a name stands for. -/
def storage? (table : ConstantTable) (name : String) : Option StorageId :=
  (table.find? name).map Constant.storage

theorem storage?_insert (other : String) : (table.insert name constant).storage? other =
    if other = name then some constant.storage else table.storage? other := by
  rw [storage?, find?_insert]
  split <;> rfl

theorem shares_iff : table.Shares a b ↔
    ∃ storage, table.storage? a = some storage ∧ table.storage? b = some storage := by
  simp only [Shares, storage?, Option.map_eq_some_iff, Constant.sharesStorageWith, beq_iff_eq]
  constructor
  · rintro ⟨first, second, here, there, same⟩
    exact ⟨second.storage, ⟨first, here, same⟩, second, there, rfl⟩
  · rintro ⟨storage, ⟨first, here, rfl⟩, second, there, same⟩
    exact ⟨first, second, here, there, same.symm⟩

/-- A table that shows given values, and whose constants share as a partition of the names says.
Every name is bound once and every storage in use has been taken before. -/
structure Shows (table : ConstantTable) (values : ConstantValues) (partition : NameClasses) :
    Prop where
  distinct : (table.entries.map Prod.fst).Nodup
  taken : ∀ name storage, table.storage? name = some storage → storage < table.nextStorage
  value : ∀ name, (table.find? name).map Constant.value = values name
  shares : ∀ a b, table.Shares a b ↔ partition.Joined a b

theorem nodup_insert (distinct : (table.entries.map Prod.fst).Nodup) :
    ((table.insert name constant).entries.map Prod.fst).Nodup := by
  rw [insert, List.map_cons, List.nodup_cons]
  refine ⟨by simp [erase], ?_⟩
  exact (List.filter_sublist.map Prod.fst).nodup distinct

theorem shows_empty : Shows {} (fun _ => none) {} :=
  ⟨List.nodup_nil, by simp [storage?, find?], by simp [find?],
    by simp [shares_iff, storage?, find?, NameClasses.Joined]⟩

namespace Shows

/-- Binding a name changes its value; what shares with what is left to say. -/
theorem insert (shows : table.Shows values partition) {next : StorageId}
    {moved : NameClasses} (grown : table.nextStorage ≤ next) (below : constant.storage < next)
    (shares : ∀ a b, (table.insert name constant).Shares a b ↔ moved.Joined a b) :
    Shows { table.insert name constant with nextStorage := next }
      (values.bind name constant.value) moved where
  distinct := nodup_insert shows.distinct
  taken other storage found := by
    have found : (table.insert name constant).storage? other = some storage := found
    rw [storage?_insert] at found
    split at found
    · cases found
      exact below
    · exact Nat.lt_of_lt_of_le (shows.taken other storage found) grown
  value other := by
    change ((table.insert name constant).find? other).map Constant.value = _
    rw [find?_insert, ConstantValues.bind, ← shows.value other]
    split <;> rfl
  shares := shares

/-- A constant in a storage of its own shares with nothing. -/
theorem insert_fresh (shows : table.Shows values partition) (name : String)
    (fresh : constant.storage = table.nextStorage) :
    (table.allocate.2.insert name constant).Shows (values.bind name constant.value)
      (partition.isolate name) := by
  have below : constant.storage < table.nextStorage + 1 := by rw [fresh]; exact Nat.lt_succ_self _
  refine shows.insert (Nat.le_succ _) below fun a b => ?_
  have unused (other : String) : table.storage? other ≠ some constant.storage := fun found =>
    absurd (shows.taken other _ found) (by rw [fresh]; exact Nat.lt_irrefl _)
  rw [shares_iff, NameClasses.joined_isolate, ← shows.shares, shares_iff]
  simp only [storage?_insert]
  by_cases first : a = name <;> by_cases second : b = name
  · simp [first, second]
  · simp [first, second, unused]
  · have apart (found : table.storage? a = some constant.storage) : False := unused a found
    simpa [first, second] using apart
  · simp [first, second]

/-- A copy shares with what its source shares with. -/
theorem insert_copy (shows : table.Shows values partition)
    (found : table.find? source = some constant) :
    (table.insert name constant).Shows (values.bind name constant.value)
      (partition.join source name) := by
  have stored : table.storage? source = some constant.storage := by rw [storage?, found]; rfl
  refine shows.insert (Nat.le_refl _) (shows.taken source _ stored) fun a b => ?_
  have moved (other : String) : (table.insert name constant).storage? other =
      table.storage? (if other = name then source else other) := by
    rw [storage?_insert]
    split
    · exact stored.symm
    · rfl
  rw [shares_iff, NameClasses.joined_join, ← shows.shares, shares_iff, moved, moved]

/-- Another value in the storage that a name has leaves what is shared. -/
theorem insert_rewritten (shows : table.Shows values partition)
    (kept : table.storage? name = some constant.storage) :
    (table.insert name constant).Shows (values.bind name constant.value) partition := by
  refine shows.insert (Nat.le_refl _) (shows.taken name _ kept) fun a b => ?_
  have same (other : String) :
      (table.insert name constant).storage? other = table.storage? other := by
    rw [storage?_insert]
    split
    · rename_i here
      rw [here, kept]
    · rfl
  rw [shares_iff, same, same, ← shares_iff]
  exact shows.shares a b

theorem erase (shows : table.Shows values partition) :
    (table.erase name).Shows (values.remove name) (partition.remove name) where
  distinct := (List.filter_sublist.map Prod.fst).nodup shows.distinct
  taken other storage found := by
    rw [storage?, find?_erase] at found
    split at found
    · cases found
    · exact shows.taken other storage found
  value other := by
    rw [find?_erase, ConstantValues.remove]
    split
    · rfl
    · exact shows.value other
  shares a b := by
    rw [NameClasses.joined_remove, ← shows.shares]
    simp only [Shares, find?_erase]
    by_cases first : a = name <;> by_cases second : b = name <;> simp [first, second]

theorem isShared_iff (shows : table.Shows values partition)
    (found : table.find? name = some constant) :
    table.isShared name constant = true ↔ ∃ other, other ≠ name ∧ table.Shares name other := by
  simp only [isShared, List.any_eq_true, Bool.and_eq_true, bne_iff_ne, Shares,
    Constant.sharesStorageWith, beq_iff_eq]
  constructor
  · rintro ⟨⟨other, shared⟩, member, apart, same⟩
    exact ⟨other, apart, constant, shared, found, (mem_iff_lookup shows.distinct).mp member,
      same.symm⟩
  · rintro ⟨other, apart, first, shared, here, there, same⟩
    have same_constant : first = constant := Option.some.inj (here.symm.trans found)
    rw [same_constant] at same
    exact ⟨(other, shared), mem_of_lookup there, apart, same.symm⟩

/-- A name shares its storage with another one exactly when its class has other members. -/
theorem isShared_eq (shows : table.Shows values partition)
    (found : table.find? name = some constant) :
    table.isShared name constant = partition.hasOthers name := by
  rw [Bool.eq_iff_iff, shows.isShared_iff found, NameClasses.hasOthers_iff]
  simp only [shows.shares]

/-- A name that stands for nothing is in no class. -/
theorem hasOthers_eq_false (shows : table.Shows values partition)
    (absent : table.find? name = none) : partition.hasOthers name = false := by
  rw [Bool.eq_false_iff]
  intro others
  obtain ⟨other, _, joined⟩ := NameClasses.hasOthers_iff.mp others
  obtain ⟨constant, _, found, _⟩ := (shows.shares name other).mpr joined
  rw [absent] at found
  cases found

/-- Detaching a constant takes its name out of a class with others and changes no value. -/
theorem detach (shows : table.Shows values partition) (name : String) :
    (table.detach name).Shows values
      (if partition.hasOthers name then partition.isolate name else partition) := by
  unfold ConstantTable.detach
  cases found : table.find? name with
  | none => simpa [shows.hasOthers_eq_false found] using shows
  | some constant =>
    simp only [shows.isShared_eq found]
    split
    · have kept : values name = some constant.value := by rw [← shows.value, found]; rfl
      have moved : (table.allocate.2.insert name (constant.movedTo table.nextStorage)).Shows
          (values.bind name constant.value) (partition.isolate name) := shows.insert_fresh name rfl
      rwa [ConstantValues.bind_same kept] at moved
    · exact shows

/-- A detached constant shares with nothing. -/
theorem detach_alone (shows : table.Shows values partition) {other : String}
    (apart : other ≠ name) : ¬(table.detach name).Shares name other := by
  rw [(shows.detach name).shares]
  split
  · simp [NameClasses.joined_isolate, apart]
  · rename_i single
    exact fun joined => single (NameClasses.hasOthers_iff.mpr ⟨other, apart, joined⟩)

theorem write (shows : table.Shows values partition) (index : Nat) (value : Float32) :
    (table.write name index value).Shows (values.serve (.write name index value))
      (partition.serve (.write name index value)) := by
  have detached := shows.detach name
  simp only [ConstantTable.write, ConstantValues.serve, NameClasses.serve]
  cases found : (table.detach name).find? name with
  | none =>
    have absent : values name = none := by rw [← detached.value, found]; rfl
    simpa [absent] using detached
  | some constant =>
    have present : values name = some constant.value := by rw [← detached.value, found]; rfl
    have stored : (table.detach name).storage? name = some constant.storage := by
      rw [storage?, found]; rfl
    simp only [present, Option.map_some, Option.getD_some]
    cases written : constant.write? index value with
    | none =>
      rw [Constant.write_value_of_none written, ConstantValues.bind_same present]
      exact detached
    | some rewritten =>
      obtain ⟨kept, same⟩ := Constant.write_value_of_some written
      rw [← same]
      exact detached.insert_rewritten (kept ▸ stored)

/-- A constructor binds its name to a constant that shares with nothing, or changes nothing. -/
theorem make (shows : table.Shows values partition)
    (constructor : StorageId → Except Error Constant) {value? : Option ConstantValue}
    (makes : (constructor table.nextStorage).toOption.map Constant.value = value?)
    (placed : ∀ constant, constructor table.nextStorage = .ok constant →
      constant.storage = table.nextStorage) :
    (table.make name constructor).Shows ((value?.map (values.bind name)).getD values)
      (if value?.isSome then partition.isolate name else partition) := by
  subst makes
  simp only [ConstantTable.make, allocate]
  cases made : constructor table.nextStorage with
  | error _ => simpa [Except.toOption] using shows
  | ok constant =>
    simpa [Except.toOption, allocate] using shows.insert_fresh name (placed constant made)

theorem clone (shows : table.Shows values partition) :
    ((table.clone? source name).getD table).Shows (values.serve (.clone source name))
      (partition.serve (.clone source name)) := by
  have known : source ∈ partition.classes.flatten ↔ (table.find? source).isSome := by
    rw [← NameClasses.joined_self, ← shows.shares, Shares, Option.isSome_iff_exists]
    constructor
    · rintro ⟨constant, _, found, _⟩
      exact ⟨constant, found⟩
    · rintro ⟨constant, found⟩
      exact ⟨constant, constant, found, found, by simp [Constant.sharesStorageWith]⟩
  simp only [clone?, ConstantValues.serve, NameClasses.serve, known, ← shows.value source]
  cases found : table.find? source with
  | none => simpa using shows
  | some constant => simpa using shows.insert_copy found

end Shows

theorem shows_serve (shows : table.Shows values partition) (call : Call) :
    (table.serve call).Shows (values.serve call) (partition.serve call) := by
  cases call with
  | new name info data =>
    exact shows.make (Constant.new · info data) (Constant.value_new _ info data)
      fun _ => Constant.storage_of_new
  | filled name extents value =>
    exact shows.make (Constant.filled · extents value) (Constant.value_filled _ extents value)
      fun _ => Constant.storage_of_filled
  | clone source name => exact shows.clone
  | write name index value => exact shows.write index value
  | drop name => exact shows.erase

theorem shows_run (calls : List Call) :
    (run calls).Shows (ConstantValues.run calls) (NameClasses.run calls) := by
  have follows : ∀ (calls : List Call) (table : ConstantTable) (values : ConstantValues)
      (partition : NameClasses), table.Shows values partition →
      (calls.foldl serve table).Shows (calls.foldl ConstantValues.serve values)
        (calls.foldl NameClasses.serve partition) := by
    intro calls
    induction calls with
    | nil => exact fun _ _ _ shows => shows
    | cons call calls ih => exact fun _ _ _ shows => ih _ _ _ (shows_serve shows call)
  exact follows calls {} _ {} shows_empty

/-- A write takes its constant out of a class of three, even past the end. -/
example : (NameClasses.run [.filled "a" [2] 0, .clone "a" "b", .clone "b" "c", .write "b" 7 1,
    .drop "c"]).classes = [["b"], ["a"]] := by decide

end ConstantTable

end NeuralGraph
