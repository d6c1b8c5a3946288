import AliyunIot.Infra.State
import AliyunIot.Lib.Run

/-!
# Yield and close

`IOT_Linkkit_Yield`, called over and over by one thread, and `IOT_Linkkit_Close` of the
master, called by another. A step is one statement of either; both look at the other's
flag, and nothing else keeps them apart. `close_under_yield`: nothing is pulled from
under a yield when no close tests `is_yield_running` while a yield is between its test
of `yield_running` and the statement that clears `is_yield_running`; a close that has
returned `STATE_DEV_MODEL_YIELD_RUNNING` leaves a device that no yield serves.
-/

namespace AliyunIot.Linkkit

open Lib

structure CloseBuild where
  gateway : Bool
  rawdataSolo : Bool

/-- What the master close takes away: the device model with its connection, the lists
and the mutexes of `iotx_linkkit_ctx_t`, and last its bytes. -/
inductive LinkkitPart where
  | dm | upstreamSyncCallbackList | upstreamMutex | mutex | serviceList | serviceListMutex | ctx
  deriving DecidableEq

/-- Where the yield thread stands: the statement it takes next. -/
inductive Yielding where
  | idle
  /-- `yield_running` was 0 -/
  | stopped
  | setRunning (timeoutMs : Int)
  | testTimeout (timeoutMs : Int)
  | testOpened
  | testConnected
  | dmYield
  | dmDispatch
  | clearRunning (res : Int)
  deriving DecidableEq

inductive Closing where
  | idle
  | testRunning
  | lock
  | testOpened
  | clearOpened
  /-- the part that goes next -/
  | destroy (part : LinkkitPart)
  | unlock
  deriving DecidableEq

/-- The flags of `iotx_linkkit_ctx_t`, the parts that are left, and what the threads
have got. `inbox` is what waits on the connection. -/
structure YieldThreads where
  yieldRunning : Bool
  isYieldRunning : Bool
  isOpened : Bool
  isConnected : Bool
  alive : LinkkitPart → Bool
  inbox : List Nat
  received : List Nat
  yielding : Yielding
  yieldResults : List Int
  closing : Closing
  closeResults : List Int

inductive YieldOp where
  /-- a message comes from the cloud -/
  | arrive (msg : Nat)
  /-- `IOT_Linkkit_Yield` is called and reads `yield_running` -/
  | yieldCall (timeoutMs : Int)
  | yieldStep
  /-- `IOT_Linkkit_Close` of the master is called and clears `yield_running` -/
  | closeCall
  | closeStep
  deriving DecidableEq

namespace YieldThreads

/-- The next statement of `IOT_Linkkit_Yield`. -/
def yieldStep (s : YieldThreads) : YieldThreads :=
  match s.yielding with
  | .idle => s
  | .stopped =>
    { s with
      yielding := .idle, yieldResults := s.yieldResults ++ [State.devModelYieldStopped] }
  | .setRunning timeoutMs =>
    { s with isYieldRunning := true, yielding := .testTimeout timeoutMs }
  | .testTimeout timeoutMs =>
    { s with
      yielding :=
        if timeoutMs ≤ 0 then .clearRunning State.userInputInvalid else .testOpened }
  | .testOpened =>
    { s with
      yielding := if s.isOpened = false then .clearRunning State.devModelMasterNotConnectYet
        else .testConnected }
  | .testConnected =>
    { s with
      yielding := if s.isConnected = false then .clearRunning State.devModelMasterNotConnectYet
        else .dmYield }
  | .dmYield =>
    if s.alive .dm then
      { s with yielding := .dmDispatch, received := s.received ++ s.inbox, inbox := [] }
    else { s with yielding := .dmDispatch }
  | .dmDispatch => { s with yielding := .clearRunning State.success }
  | .clearRunning res =>
    { s with isYieldRunning := false, yielding := .idle, yieldResults := s.yieldResults ++ [res] }

def afterDestroy (build : CloseBuild) : LinkkitPart → Closing
  | .dm => if build.gateway then .destroy .upstreamSyncCallbackList else .unlock
  | .upstreamSyncCallbackList => .destroy .upstreamMutex
  | .upstreamMutex => .unlock
  | .mutex => if build.rawdataSolo then .destroy .ctx else .destroy .serviceList
  | .serviceList => .destroy .serviceListMutex
  | .serviceListMutex => .destroy .ctx
  | .ctx => .idle

/-- A part goes; with its bytes the flags of the context are zero. -/
def destroy (build : CloseBuild) (s : YieldThreads) (part : LinkkitPart) : YieldThreads :=
  let s := { s with
    alive := Function.update s.alive part false, closing := afterDestroy build part }
  match part with
  | .ctx =>
    { s with
      yieldRunning := false, isYieldRunning := false, isOpened := false, isConnected := false,
      closeResults := s.closeResults ++ [State.success] }
  | _ => s

/-- The next statement of `_iotx_linkkit_master_close`. The yield thread does not take
the mutex, so the lock never waits. -/
def closeStep (build : CloseBuild) (s : YieldThreads) : YieldThreads :=
  match s.closing with
  | .idle => s
  | .testRunning =>
    if s.isYieldRunning then
      { s with
        closing := .idle, closeResults := s.closeResults ++ [State.devModelYieldRunning] }
    else { s with closing := .lock }
  | .lock => { s with closing := .testOpened }
  | .testOpened =>
    if s.isOpened = false then
      { s with
        closing := .idle, closeResults := s.closeResults ++ [State.devModelMasterNotOpenYet] }
    else { s with closing := .clearOpened }
  | .clearOpened => { s with isOpened := false, closing := .destroy .dm }
  | .destroy part => destroy build s part
  | .unlock => { s with closing := .destroy .mutex }

def next (build : CloseBuild) (s : YieldThreads) : YieldOp → YieldThreads
  | .arrive msg => { s with inbox := s.inbox ++ [msg] }
  | .yieldCall timeoutMs =>
    if s.yielding = .idle then
      { s with
        yielding := if s.yieldRunning = false then .stopped else .setRunning timeoutMs }
    else s
  | .yieldStep => s.yieldStep
  | .closeCall =>
    if s.closing = .idle then { s with yieldRunning := false, closing := .testRunning } else s
  | .closeStep => closeStep build s

def connected : YieldThreads where
  yieldRunning := true
  isYieldRunning := false
  isOpened := true
  isConnected := true
  alive _ := true
  inbox := []
  received := []
  yielding := .idle
  yieldResults := []
  closing := .idle
  closeResults := []

end YieldThreads

open YieldThreads

/-! ## What a close has to leave alone -/

/-- A yield is between setting `is_yield_running` and clearing it. -/
def Yielding.Inside : Yielding → Prop
  | .testTimeout _ | .testOpened | .testConnected | .dmYield | .dmDispatch | .clearRunning _ => True
  | .idle | .stopped | .setRunning _ => False

/-- A yield has found `yield_running` set, and has not cleared `is_yield_running`. -/
def Yielding.Entered : Yielding → Prop
  | .idle | .stopped => False
  | _ => True

instance : DecidablePred Yielding.Inside := fun y => by
  unfold Yielding.Inside; cases y <;> infer_instance

instance : DecidablePred Yielding.Entered := fun y => by
  unfold Yielding.Entered; cases y <;> infer_instance

/-- The step takes no part away from under a yield. -/
def YieldThreads.Spares (s : YieldThreads) (op : YieldOp) : Prop :=
  op = .closeStep → ∀ part, s.closing = .destroy part → ¬ s.yielding.Inside

/-- A close does not test `is_yield_running` while a yield is past its test of
`yield_running`. -/
def YieldThreads.Careful (s : YieldThreads) (op : YieldOp) : Prop :=
  op = .closeStep → s.closing = .testRunning → ¬ s.yielding.Entered

instance (s : YieldThreads) (op : YieldOp) : Decidable (s.Careful op) :=
  inferInstanceAs (Decidable (_ → _))

/-- A call of `IOT_Linkkit_Yield` from beginning to end. -/
def wholeYield (timeoutMs : Int) : List YieldOp :=
  .yieldCall timeoutMs :: List.replicate 7 .yieldStep

/-- A yield with a proper timeout receives what has come. -/
def YieldThreads.Usable (build : CloseBuild) (s : YieldThreads) : Prop :=
  ∀ timeoutMs msg, 0 < timeoutMs →
    (run (next build) s (.arrive msg :: wholeYield timeoutMs)).received =
      s.received ++ s.inbox ++ [msg]

/-! ## The invariants -/

/-- A close has found `is_yield_running` clear. -/
def Closing.PastTest : Closing → Prop
  | .idle | .testRunning => False
  | _ => True

theorem Yielding.entered_of_inside {y : Yielding} (h : y.Inside) : y.Entered := by
  cases y <;> first | exact h | exact trivial

namespace YieldThreads

/-- From the first close on, `yield_running` is clear. -/
def Cleared (s : YieldThreads) : Prop :=
  s.closing ≠ .idle ∨ s.closeResults ≠ [] → s.yieldRunning = false

/-- What careful closes keep. -/
structure Apart (s : YieldThreads) : Prop where
  cleared : s.closing ≠ .idle → s.yieldRunning = false
  inside : s.isYieldRunning = true → s.yielding.Inside
  out : s.closing.PastTest → ¬ s.yielding.Entered
  results : State.devModelYieldRunning ∉ s.closeResults

theorem connected_cleared : connected.Cleared := by
  rintro (h | h)
  · exact absurd rfl h
  · exact absurd rfl h

theorem connected_apart : connected.Apart where
  cleared h := absurd rfl h
  inside := nofun
  out := nofun
  results := List.not_mem_nil

theorem yieldStep_frame (s : YieldThreads) :
    s.yieldStep.yieldRunning = s.yieldRunning ∧ s.yieldStep.closing = s.closing ∧
      s.yieldStep.closeResults = s.closeResults := by
  unfold yieldStep
  cases s.yielding with
  | dmYield => dsimp only; split <;> exact ⟨rfl, rfl, rfl⟩
  | _ => exact ⟨rfl, rfl, rfl⟩

theorem yieldStep_entered {s : YieldThreads} (h : ¬ s.yielding.Entered) :
    ¬ s.yieldStep.yielding.Entered := by
  unfold yieldStep
  cases hy : s.yielding with
  | idle => rw [hy] at h; dsimp only; rw [hy]; exact h
  | stopped => exact id
  | _ => rw [hy] at h; exact absurd trivial h

theorem yieldStep_inside {s : YieldThreads} (h : s.isYieldRunning = true → s.yielding.Inside) :
    s.yieldStep.isYieldRunning = true → s.yieldStep.yielding.Inside := by
  unfold yieldStep
  cases hy : s.yielding with
  | idle => dsimp only; rw [hy] at h ⊢; exact h
  | stopped => rw [hy] at h; exact fun hr => absurd (h hr) id
  | setRunning => exact fun _ => trivial
  | testTimeout => dsimp only; split <;> exact fun _ => trivial
  | testOpened => dsimp only; split <;> exact fun _ => trivial
  | testConnected => dsimp only; split <;> exact fun _ => trivial
  | dmYield => dsimp only; split <;> exact fun _ => trivial
  | dmDispatch => exact fun _ => trivial
  | clearRunning => exact nofun

inductive CloseStepped (build : CloseBuild) (s : YieldThreads) : YieldThreads → Prop where
  | idle : s.closing = .idle → CloseStepped build s s
  | refused : s.closing = .testRunning → s.isYieldRunning = true →
      CloseStepped build s
        { s with closing := .idle, closeResults := s.closeResults ++ [State.devModelYieldRunning] }
  | tested : s.closing = .testRunning → s.isYieldRunning = false →
      CloseStepped build s { s with closing := .lock }
  | notOpen : s.closing = .testOpened →
      CloseStepped build s
        { s with
          closing := .idle, closeResults := s.closeResults ++ [State.devModelMasterNotOpenYet] }
  | go (closing : Closing) (isOpened : Bool) : s.closing.PastTest → closing.PastTest →
      CloseStepped build s { s with closing := closing, isOpened := isOpened }
  | destroy (part : LinkkitPart) : s.closing = .destroy part →
      CloseStepped build s (destroy build s part)

variable (build : CloseBuild)

theorem closeStep_stepped (s : YieldThreads) : CloseStepped build s (closeStep build s) := by
  unfold closeStep
  cases hc : s.closing with
  | idle => exact .idle hc
  | testRunning =>
    by_cases hr : s.isYieldRunning = true
    · rw [if_pos hr]
      exact .refused hc hr
    · rw [if_neg hr]
      exact .tested hc ((Bool.not_eq_true _).mp hr)
  | lock => exact .go .testOpened s.isOpened (by rw [hc]; trivial) trivial
  | testOpened =>
    by_cases ho : s.isOpened = false
    · rw [if_pos ho]
      exact .notOpen hc
    · rw [if_neg ho]
      exact .go .clearOpened s.isOpened (by rw [hc]; trivial) trivial
  | clearOpened => exact .go (.destroy .dm) false (by rw [hc]; trivial) trivial
  | destroy part => exact .destroy part hc
  | unlock => exact .go (.destroy .mutex) s.isOpened (by rw [hc]; trivial) trivial

theorem destroy_yielding (s : YieldThreads) (part : LinkkitPart) :
    (destroy build s part).yielding = s.yielding := by
  cases part <;> rfl

theorem destroy_flags (s : YieldThreads) (part : LinkkitPart) :
    ((destroy build s part).yieldRunning = true → s.yieldRunning = true) ∧
    ((destroy build s part).isYieldRunning = true → s.isYieldRunning = true) ∧
    (∀ res ∈ (destroy build s part).closeResults, res ∈ s.closeResults ∨ res = State.success) := by
  cases part with
  | ctx =>
    refine ⟨nofun, nofun, fun res hres => ?_⟩
    rcases List.mem_append.mp hres with hres | hres
    · exact .inl hres
    · exact .inr (List.mem_singleton.mp hres)
  | _ => exact ⟨id, id, fun _ hres => .inl hres⟩

theorem Cleared.next {build : CloseBuild} {s : YieldThreads} (h : s.Cleared) (op : YieldOp) :
    (next build s op).Cleared := by
  cases op with
  | arrive msg => exact h
  | yieldCall timeoutMs =>
    unfold YieldThreads.next
    dsimp only
    split <;> exact h
  | yieldStep =>
    obtain ⟨hr, hc, hres⟩ := yieldStep_frame s
    unfold YieldThreads.next Cleared
    rw [hr, hc, hres]
    exact h
  | closeCall =>
    unfold YieldThreads.next
    dsimp only
    split
    · exact fun _ => rfl
    · exact h
  | closeStep =>
    unfold YieldThreads.next
    have hbusy : s.closing ≠ .idle → s.yieldRunning = false := fun hc => h (.inl hc)
    have hstep := closeStep_stepped build s
    generalize closeStep build s = s' at hstep ⊢
    cases hstep with
    | idle => exact h
    | refused hc => exact fun _ => hbusy (by rw [hc]; nofun)
    | tested hc => exact fun _ => hbusy (by rw [hc]; nofun)
    | notOpen hc => exact fun _ => hbusy (by rw [hc]; nofun)
    | go closing isOpened hpast => exact fun _ => hbusy fun hc => by rw [hc] at hpast; exact hpast
    | destroy part hc =>
      intro _
      have hclear := hbusy (by rw [hc]; nofun)
      rw [← Bool.not_eq_true]
      intro hset
      rw [(destroy_flags build s part).1 hset] at hclear
      cases hclear

theorem Apart.next {s : YieldThreads} (h : s.Apart) {op : YieldOp}
    (hcareful : s.Careful op) : (next build s op).Apart := by
  cases op with
  | arrive msg => exact { h with }
  | yieldCall timeoutMs =>
    unfold YieldThreads.next
    dsimp only
    split
    next hidle =>
      refine { h with inside := fun hr => ?_, out := fun hpast => ?_ }
      · have hin := h.inside hr
        rw [hidle] at hin
        exact hin.elim
      · have hclear := h.cleared fun hc => by rw [hc] at hpast; exact hpast
        rw [if_pos hclear]
        exact id
    · exact h
  | yieldStep =>
    obtain ⟨hr, hc, hres⟩ := yieldStep_frame s
    unfold YieldThreads.next
    refine ⟨?_, yieldStep_inside h.inside, ?_, ?_⟩
    · rw [hc, hr]
      exact h.cleared
    · rw [hc]
      exact fun hpast => yieldStep_entered (h.out hpast)
    · rw [hres]
      exact h.results
  | closeCall =>
    unfold YieldThreads.next
    dsimp only
    split
    · exact { h with cleared := fun _ => rfl, out := nofun }
    · exact h
  | closeStep =>
    unfold YieldThreads.next
    have hstep := closeStep_stepped build s
    generalize closeStep build s = s' at hstep ⊢
    cases hstep with
    | idle => exact h
    | refused hc hr =>
      -- the flag is set only inside, and a careful close does not test it then
      exact absurd (Yielding.entered_of_inside (h.inside hr)) (hcareful rfl hc)
    | tested hc =>
      exact { h with
        cleared := fun _ => h.cleared (by rw [hc]; nofun), out := fun _ => hcareful rfl hc }
    | notOpen hc =>
      refine ⟨nofun, h.inside, nofun, fun hres => ?_⟩
      rcases List.mem_append.mp hres with hres | hres
      · exact h.results hres
      · exact absurd hres (by decide)
    | go closing isOpened hpast hpast' =>
      exact { h with
        cleared := fun _ => h.cleared fun hc => by rw [hc] at hpast; exact hpast
        out := fun _ => h.out hpast }
    | destroy part hc =>
      have hflags := destroy_flags build s part
      have hout : ¬ s.yielding.Entered := h.out (by rw [hc]; trivial)
      refine ⟨fun _ => ?_, fun hr => ?_, fun _ => ?_, fun hres => ?_⟩
      · have hclear := h.cleared (by rw [hc]; nofun)
        rw [← Bool.not_eq_true]
        intro hset
        rw [hflags.1 hset] at hclear
        cases hclear
      · rw [destroy_yielding]
        exact h.inside (hflags.2.1 hr)
      · rw [destroy_yielding]
        exact hout
      · rcases hflags.2.2 _ hres with hres | hres
        · exact h.results hres
        · exact absurd hres (by decide)

theorem Apart.spares {s : YieldThreads} (h : s.Apart) (op : YieldOp) : s.Spares op := by
  intro _ part hc hin
  exact h.out (by rw [hc]; trivial) (Yielding.entered_of_inside hin)

theorem not_usable_of_cleared {build : CloseBuild} {s : YieldThreads} (hidle : s.yielding = .idle)
    (hclear : s.yieldRunning = false) : ¬ s.Usable build := by
  intro h
  have hrun := h 1 0 (by decide)
  have hsame : (run (YieldThreads.next build) s (.arrive 0 :: wholeYield 1)).received
      = s.received := by
    simp [wholeYield, List.replicate, YieldThreads.next, yieldStep, hidle, hclear]
  rw [hsame, List.append_assoc] at hrun
  have hlen := congrArg List.length hrun
  simp at hlen

end YieldThreads

/-- Careful closes take nothing away from under a yield and are never refused; a close that
was refused leaves a device whose yields receive nothing. -/
theorem close_under_yield (build : CloseBuild) (ops : List YieldOp) :
    (Meets (next build) Careful connected ops →
      Meets (next build) Spares connected ops ∧
        State.devModelYieldRunning ∉ (run (next build) connected ops).closeResults) ∧
    (State.devModelYieldRunning ∈ (run (next build) connected ops).closeResults →
      (run (next build) connected ops).yielding = .idle →
        ¬ (run (next build) connected ops).Usable build) := by
  constructor
  · intro hc
    have hstep := fun s op (hc : Careful s op) (h : s.Apart) => h.next build hc
    refine ⟨meets_of_invariant hstep (fun s op _ h => h.spares op) hc connected_apart, ?_⟩
    exact (run_invariant_of_meets hstep hc connected_apart).results
  · intro hres hidle
    have hclear : (run (next build) connected ops).Cleared :=
      run_invariant (fun _ op h => h.next op) connected_cleared ops
    exact not_usable_of_cleared hidle (hclear (.inr (List.ne_nil_of_mem hres)))

def closeBetween : List YieldOp :=
  wholeYield 10 ++ .closeCall :: List.replicate 12 .closeStep ++ [.yieldCall 10, .yieldStep]

def closeDuring : List YieldOp :=
  .yieldCall 10 :: List.replicate 5 .yieldStep ++ [.closeCall, .closeStep, .yieldStep, .yieldStep]

theorem close_between_yields :
    (run (next ⟨true, false⟩) connected closeBetween).closeResults = [State.success] ∧
    Meets (next ⟨true, false⟩) Spares connected closeBetween ∧
    ¬ (run (next ⟨true, false⟩) connected closeDuring).Usable ⟨true, false⟩ := by
  have hcareful : Meets (next ⟨true, false⟩) Careful connected closeBetween := by decide
  refine ⟨by decide, ((close_under_yield ⟨true, false⟩ closeBetween).1 hcareful).1, ?_⟩
  exact (close_under_yield ⟨true, false⟩ closeDuring).2 (by decide) (by decide)

/-- A yield has read `yield_running`, a close finds `is_yield_running` clear, and the
yield goes on. -/
def closePast : List YieldOp :=
  [.yieldCall 10, .closeCall, .closeStep, .yieldStep, .yieldStep, .yieldStep, .yieldStep,
    .closeStep, .closeStep, .closeStep]

/-- The close destroys the device model under the yield; a refused close stops all yields. -/
theorem close_pulls_and_stops :
    ¬ Meets (next ⟨true, false⟩) Spares connected (closePast ++ [.closeStep]) ∧
    (State.devModelYieldRunning ∈ (run (next ⟨true, false⟩) connected closeDuring).closeResults ∧
      (run (next ⟨true, false⟩) connected closeDuring).yielding = .idle ∧
      (run (next ⟨true, false⟩) connected (closeDuring ++ .arrive 7 :: wholeYield 10)).received =
        []) := by
  refine ⟨fun h => ?_, by decide, by decide, by decide⟩
  exact (meets_append.mp h).2.1 rfl .dm (by decide) (by decide)

end AliyunIot.Linkkit
