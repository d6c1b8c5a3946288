import AliyunIot.Linkkit.Open

/-!
# A failed open

`FailedCleanly` says that an open that failed has walked no list that it had not
initialised, has destroyed what it made, each object once, that the next open can succeed,
and that a close before it locks and destroys nothing that is gone. An open fails like this
only when the first mutex is not created (`failedCleanly_iff`): every later failure destroys
this mutex and leaves its pointer to `_iotx_linkkit_master_close`.
-/

namespace AliyunIot.Linkkit

open Lib

structure FailedCleanly (b : Build) (s : Device) : Prop where
  walks : s.dm.wild = 0
  objects : s.dm.heap.Clean
  destroyed : s.dm.heap.freed.Perm (List.range s.dm.nextId)
  reopens : (s.iotxLinkkitMasterOpen b .good).1 = State.success
  close_walks : (s.iotxLinkkitMasterClose b).2.dm.wild = 0
  close_objects : (s.iotxLinkkitMasterClose b).2.dm.heap.Clean

namespace Dm
variable {s : Dm}

theorem create_of_false {gives : Bool} (h : gives = false) : s.create gives = (none, s) := by
  rw [h]
  rfl

theorem create_of_true {gives : Bool} (h : gives = true) :
    s.create gives = (some s.nextId, { s with nextId := s.nextId + 1 }) := by
  rw [h]
  rfl

theorem mem_freed_destroy (id : Nat) : id ∈ (s.destroy (some id)).heap.freed :=
  List.mem_append_right _ (List.mem_singleton_self id)

theorem mem_freed_destroy_of_mem {id : Nat} (h : id ∈ s.heap.freed) (other : Option Nat) :
    id ∈ (s.destroy other).heap.freed := List.mem_append_left _ h

theorem lock_faults {id : Nat} (h : id ∈ s.heap.freed) : id ∈ (s.lock (some id)).heap.faults :=
  List.mem_append_right _ (List.mem_filter.mpr ⟨List.mem_singleton_self id, by simpa using h⟩)

theorem lock_faults_of_mem {id : Nat} (h : id ∈ s.heap.faults) (mutex : Option Nat) :
    id ∈ (s.lock mutex).heap.faults := List.mem_append_left _ h

end Dm

namespace Device
variable {b : Build} {io : OpenIo} {s : Device}

/-- The mutex of a device that is not open was destroyed. -/
structure Dangling (s : Device) : Prop where
  notOpened : s.linkkit.isOpened = false
  notYielding : s.linkkit.isYieldRunning = false
  mutex : ∃ id, s.linkkit.mutex = some id ∧ id ∈ s.dm.heap.freed

theorem masterOpen_mutex (h : io.mutex = false) :
    init.iotxLinkkitMasterOpen b io = (State.sysDependMutexCreate, init) := by
  unfold iotxLinkkitMasterOpen
  rw [Dm.create_of_false h]
  rfl

theorem masterOpen_dangling (hopened : s.linkkit.isOpened = false)
    (hyield : s.linkkit.isYieldRunning = false) (h : io.mutex = true)
    (hres : (s.iotxLinkkitMasterOpen b io).1 ≠ State.success) :
    (s.iotxLinkkitMasterOpen b io).2.Dangling := by
  revert hres
  unfold iotxLinkkitMasterOpen
  rw [if_neg (by simp [hopened]), Dm.create_of_true h]
  dsimp only
  generalize createUpstreamMutex b io s.linkkit _ = upstream
  obtain ⟨upstreamMutex, dm⟩ := upstream
  split
  · exact fun _ => ⟨rfl, hyield, _, rfl, Dm.mem_freed_destroy _⟩
  generalize createServiceListMutex b io _ dm = service
  obtain ⟨serviceListMutex, dm⟩ := service
  split
  · exact fun _ => ⟨rfl, hyield, _, rfl, Dm.mem_freed_destroy_of_mem (Dm.mem_freed_destroy _) _⟩
  generalize dm.iotxDmOpen b io = opened
  obtain ⟨res, dm⟩ := opened
  split
  · exact fun _ => ⟨rfl, hyield, _, rfl, Dm.mem_freed_destroy _⟩
  · exact fun hres => absurd rfl hres

theorem Dangling.close_faults (h : s.Dangling) :
    ¬ (s.iotxLinkkitMasterClose b).2.dm.heap.Clean := by
  obtain ⟨id, hmutex, hfreed⟩ := h.mutex
  intro hclean
  unfold iotxLinkkitMasterClose at hclean
  rw [if_neg (by simp [h.notYielding]), if_pos h.notOpened, hmutex] at hclean
  have hfault := Dm.lock_faults_of_mem (Dm.lock_faults hfreed) (some id)
  have hnone := hclean.faults
  rw [hnone] at hfault
  cases hfault

theorem init_reopens (b : Build) : (init.iotxLinkkitMasterOpen b .good).1 = State.success := by
  obtain ⟨gateway, rawdataSolo, ota, messageCache, alcs, protocolType⟩ := b
  cases gateway <;> cases rawdataSolo <;> cases ota <;> cases messageCache <;> cases alcs <;>
    cases protocolType <;> rfl

theorem init_failedCleanly (b : Build) : FailedCleanly b init where
  walks := rfl
  objects := ⟨rfl, List.nodup_nil⟩
  destroyed := .nil
  reopens := init_reopens b
  close_walks := rfl
  close_objects := ⟨rfl, List.nodup_nil⟩

/-- An open from the initial state fails cleanly just when its first mutex fails. -/
theorem failedCleanly_iff (hres : (init.iotxLinkkitMasterOpen b io).1 ≠ State.success) :
    FailedCleanly b (init.iotxLinkkitMasterOpen b io).2 ↔ io.mutex = false := by
  constructor
  · intro hclean
    by_contra hmutex
    have hdangling := masterOpen_dangling rfl rfl (by simpa using hmutex) hres
    exact hdangling.close_faults hclean.close_objects
  · intro hmutex
    rw [masterOpen_mutex hmutex]
    exact init_failedCleanly b

/-- A gateway with everything. -/
def fullBuild : Build := ⟨true, false, true, true, some true, .mqtt⟩

theorem failedCleanly_mutex :
    (init.iotxLinkkitMasterOpen fullBuild { OpenIo.good with mutex := false }).1 ≠
      State.success ∧
    FailedCleanly fullBuild
      (init.iotxLinkkitMasterOpen fullBuild { OpenIo.good with mutex := false }).2 :=
  have hres : (init.iotxLinkkitMasterOpen fullBuild { OpenIo.good with mutex := false }).1 ≠
      State.success := by decide
  ⟨hres, (failedCleanly_iff hres).mpr rfl⟩

/-- When the mutex of `dm_ipc_init` is not created, the error block walks the lists of the
manager and of the queue, which are still zero. When the client fails, it walks no such
list, but the close after it locks a mutex that is destroyed. -/
theorem failed_open_not_clean :
    (init.iotxLinkkitMasterOpen fullBuild { OpenIo.good with ipcMutex := false }).2.dm.wild =
      2 ∧
    ¬ FailedCleanly fullBuild
      (init.iotxLinkkitMasterOpen fullBuild { OpenIo.good with ipcMutex := false }).2 ∧
    (init.iotxLinkkitMasterOpen fullBuild { OpenIo.good with fdLock := false }).2.dm.wild =
      0 ∧
    ((init.iotxLinkkitMasterOpen fullBuild
      { OpenIo.good with fdLock := false }).2.iotxLinkkitMasterClose
        fullBuild).2.dm.heap.faults = [0, 0] ∧
    ¬ FailedCleanly fullBuild
      (init.iotxLinkkitMasterOpen fullBuild { OpenIo.good with fdLock := false }).2 := by
  refine ⟨by decide, fun h => ?_, by decide, by decide, fun h => ?_⟩
  · exact absurd h.walks (by decide)
  · exact absurd h.close_objects.faults (by decide)

end Device

end AliyunIot.Linkkit
