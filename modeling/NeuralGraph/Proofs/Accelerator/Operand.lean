import NeuralGraph.Accelerator.Operand
import NeuralGraph.Proofs.Memory.Staging
import NeuralGraph.Proofs.Reference.Execution

/-! Caller memory as operands of native functions, and what it takes for a workload to do what the
reference kernel of its descriptor does. -/

namespace NeuralGraph

/-- Where the reference kernel of a descriptor succeeds, a workload does just what it does. -/
def Workload.Follows (workload : Workload) (descriptor : QueueDescriptor) (staging : Staging) :
    Prop :=
  ∀ host after, descriptor.Ready host →
    Reference.execute descriptor { host, staging } = (after, .ok ()) →
    workload.execute { host, staging } = (after, .ok ())

namespace Reference

/-- One run of a kernel with one input and one output. -/
theorem execute_single {descriptor : QueueDescriptor} {input output : Handle}
    {device after : Device} (inputs : descriptor.inputs = [input])
    (outputs : descriptor.outputs = [output]) (single : descriptor.kind.outputCount = 1)
    (success : execute descriptor device = (after, .ok ())) :
    ∃ data result, device.host.read? input = some data ∧
      evaluate descriptor.kind [⟨input.shape, data⟩] [output.shape] = .ok [result] ∧
      device.host.Fits output result ∧
      after = { device with host := device.host.replace output result } := by
  obtain ⟨views, results, host, read, evaluated, written, rfl⟩ := execute_eq_ok.mp success
  rw [inputs] at read
  rw [outputs] at evaluated written
  obtain ⟨view, rfl, viewed⟩ := List.map_eq_singleton_iff.mp read
  obtain ⟨data, held, rfl⟩ := Option.map_eq_some_iff.mp viewed.symm
  obtain ⟨result, rfl⟩ := List.length_eq_one_iff.mp ((length_evaluate evaluated).trans single)
  obtain ⟨fits, rfl⟩ : device.host.Fits output result ∧
      host = device.host.replace output result := by
    simp only [writeResults] at written
    cases copied : device.host.copyFrom output result with
    | error error => simp [copied] at written
    | ok filled =>
      simp only [copied, Prod.mk.injEq, and_true] at written
      exact HostMemory.copyFrom_eq_ok.mp (written ▸ copied)
  exact ⟨data, result, held, evaluated, fits, rfl⟩

end Reference

namespace Accelerator

theorem ofHandle_eq_ok {handle : Handle} {operand : Operand} :
    Operand.ofHandle handle = .ok operand ↔
      handle.isForeign = false ∧ operand = .imported handle := by
  unfold Operand.ofHandle
  cases handle.isForeign <;> simp [eq_comm]

namespace Operand

variable {handle : Handle} {device after : Device} {data : Array Float32}

theorem read_imported_eq_ok :
    (imported handle).read device = .ok data ↔ device.host.read? handle = some data := by
  unfold read
  cases held : device.host.read? handle <;> simp [held]

theorem write_imported_eq_ok :
    (imported handle).write device data = .ok after ↔ device.host.Fits handle data ∧
      after = { device with host := device.host.replace handle data } := by
  unfold write
  by_cases foreign : handle.isForeign = true
  · have unread : ¬device.host.Fits handle data := by
      rintro ⟨_, held, _⟩
      obtain ⟨_, buffer, _⟩ := Option.bind_eq_some_iff.mp held
      simp [Handle.isForeign, buffer] at foreign
    simp [foreign, unread]
  · simp only [foreign]
    cases copied : device.host.copyFrom handle data with
    | error error =>
      have refused : ¬device.host.Fits handle data := fun fits => by
        rw [HostMemory.copyFrom_eq_ok.mpr ⟨fits, rfl⟩] at copied
        cases copied
      simp [refused]
    | ok host =>
      obtain ⟨fits, rfl⟩ := HostMemory.copyFrom_eq_ok.mp copied
      simp [fits, eq_comm]

theorem store_imported {result : Except Fault (Array Float32)} (computed : result = .ok data)
    (fits : device.host.Fits handle data) :
    (imported handle).store device result =
      ({ device with host := device.host.replace handle data }, .ok ()) := by
  simp only [store, computed, write_imported_eq_ok.mpr ⟨fits, rfl⟩]

/-- What is written to the host leaves staging memory alone. -/
theorem staging_write_imported (stored : (imported handle).write device data = .ok after) :
    after.staging = device.staging := by
  obtain ⟨_, rfl⟩ := write_imported_eq_ok.mp stored
  rfl

theorem staging_store_imported (result : Except Fault (Array Float32)) :
    ((imported handle).store device result).1.staging = device.staging := by
  cases result with
  | error fault => rfl
  | ok data =>
    unfold store
    dsimp only
    split
    · rfl
    · rename_i stored
      exact staging_write_imported stored

/-- An operand takes as many values as it has, and they are what it gives from then on. -/
theorem write_total {operand : Operand} {held : Array Float32}
    (read : operand.read device = .ok held) (fits : data.size = held.size) :
    ∃ after, operand.write device data = .ok after ∧ operand.read after = .ok data := by
  cases operand with
  | imported handle =>
    have room : device.host.Fits handle data := ⟨held, read_imported_eq_ok.mp read, fits⟩
    refine ⟨_, write_imported_eq_ok.mpr ⟨room, rfl⟩, read_imported_eq_ok.mpr ?_⟩
    exact (HostMemory.read?_replace room handle).trans (if_pos rfl)
  | staged tensor =>
    obtain rfl : device.staging.read tensor = held := Except.ok.inj read
    obtain ⟨staging, stored⟩ := Staging.write_total fits
    refine ⟨{ device with staging }, by simp only [write, stored, ofStaging]; rfl, ?_⟩
    exact congrArg Except.ok ((Staging.read_write stored tensor).trans (if_pos rfl))

/-- A function that reads one buffer and stores what the reference kernel gives on it. -/
theorem store_follows {descriptor : QueueDescriptor} {input output : Handle}
    {compute : Array Float32 → Array Float32} (inputs : descriptor.inputs = [input])
    (outputs : descriptor.outputs = [output]) (single : descriptor.kind.outputCount = 1)
    (success : Reference.execute descriptor device = (after, .ok ()))
    (agrees : ∀ data result, device.host.read? input = some data →
      Reference.evaluate descriptor.kind [⟨input.shape, data⟩] [output.shape] = .ok [result] →
      compute data = result) :
    (imported output).store device (do return compute (← (imported input).read device)) =
      (after, .ok ()) := by
  obtain ⟨data, result, held, evaluated, fits, rfl⟩ :=
    Reference.execute_single inputs outputs single success
  refine store_imported ?_ fits
  rw [read_imported_eq_ok.mpr held, ← agrees data result held evaluated]
  rfl

end Operand

end Accelerator

end NeuralGraph
