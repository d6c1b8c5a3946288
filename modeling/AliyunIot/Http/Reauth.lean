import AliyunIot.Http.Api
import Mathlib.Tactic.Common

/-!
# When re-authentication comes to an end

A message whose token has expired is not sent again: the authentication after it makes two
reports, which are messages themselves. Each round of a message leaves one message less to be
answered, or, when it is answered that the token has expired and the authentication succeeds, one
more. A call returns exactly when at some moment none is left; nothing in the code bounds how
deep the calls nest before.
-/

namespace AliyunIot.Http

/-! ## Rounds -/

/-- No message was exchanged. -/
def isFailed (response : Response) : Bool :=
  match response.perform with
  | none => true
  | some ret => ret < 0

/-- The message is answered that the token has expired. -/
def isExpired (response : Response) : Bool :=
  !isFailed response && response.message && response.code == some iotxHttpTokenExpiredError

/-- The authentication is answered with a token. -/
def isGranted (response : Response) : Bool :=
  !isFailed response && response.message && response.code == some iotxHttpSuccess &&
    match response.token with
    | none => false
    | some length => length ≤ iotxHttpAuthTokenLen - 1

/-- What becomes of a message: it fails, it is answered, or its token has expired and the
authentication after it is refused or gives a new token. -/
inductive Round where
  | failed | answered | refused | renewed

/-- The round that begins with request `n`, and the request after it. -/
def roundAt (server : Nat → Response) (n : Nat) : Round × Nat :=
  if isFailed (server n) then (.failed, n + 1)
  else if isExpired (server n) then
    if isGranted (server (n + 1)) then (.renewed, n + 2) else (.refused, n + 2)
  else (.answered, n + 1)

/-- How many of `left` messages are still to be answered after `rounds` rounds from request `n`
on. `fresh` says that the next one is the device info directly after an authentication: when it
fails, the firmware version behind it is not reported either. -/
def outstanding (server : Nat → Response) : Nat → Bool → Nat → Nat → Nat
  | 0, _, left, _ => left
  | _ + 1, _, 0, _ => 0
  | rounds + 1, fresh, left + 1, n =>
    match roundAt server n with
    | (.failed, n') => outstanding server rounds false (if fresh then left - 1 else left) n'
    | (.answered, n') => outstanding server rounds false left n'
    | (.refused, _) => 0
    | (.renewed, n') => outstanding server rounds true (left + 2) n'

section Calls

variable {server : Nat → Response} {depth n q : Nat} {ctx : IotxHttp}

theorem report_unauthed (h : ctx.isAuthed = false) :
    httpReportFunc server (depth + 1) ctx = some (-1, ctx) := by
  simp [httpReportFunc, iotHttpSendMessage, h]

theorem auth_refused {reportFunc : InfoReportFunc} (h : isGranted (server ctx.requests) = false) :
    ∃ ret, iotHttpDeviceNameAuth server reportFunc true ctx
      = some (ret, ⟨false, ctx.requests + 1⟩) := by
  unfold iotHttpDeviceNameAuth
  generalize server ctx.requests = response at h
  obtain ⟨perform, code, message, messageId, token⟩ := response
  rcases perform with _ | perform
  · exact ⟨-1, rfl⟩
  by_cases hperform : perform < 0
  · exact ⟨-1, by simp [hperform]⟩
  rcases code with _ | code
  · exact ⟨-1, by simp [hperform]⟩
  rcases message with _ | _
  · exact ⟨-1, by simp [hperform]⟩
  by_cases hcode : code = iotxHttpSuccess
  · rcases token with _ | length
    · exact ⟨-1, by simp [hperform, hcode]⟩
    · have hlength : ¬ length ≤ 192 := by
        simpa [isGranted, isFailed, hperform, hcode] using h
      exact ⟨-1, by simp [hperform, hcode, hlength]⟩
  · exact ⟨State.failReturn, by simp [hperform, hcode]⟩

theorem auth_granted {reportFunc : InfoReportFunc} (h : isGranted (server ctx.requests) = true) :
    (iotHttpDeviceNameAuth server reportFunc true ctx).map Prod.snd
      = (reportFunc ⟨true, ctx.requests + 1⟩).bind fun r =>
          if r.1 < 0 then some r.2 else (reportFunc r.2).map Prod.snd := by
  unfold iotHttpDeviceNameAuth
  generalize server ctx.requests = response at h
  obtain ⟨perform, code, message, messageId, token⟩ := response
  rcases perform with _ | perform
  · simp [isGranted, isFailed] at h
  rcases token with _ | length
  · simp [isGranted] at h
  obtain ⟨⟨⟨hperform, rfl⟩, rfl⟩, hlength⟩ :
      ((0 ≤ perform ∧ message = true) ∧ code = some iotxHttpSuccess) ∧
        length ≤ iotxHttpAuthTokenLen - 1 := by
    simpa [isGranted, isFailed] using h
  simp only [Bool.not_true, Bool.false_eq_true, if_false, Int.not_lt.mpr hperform, ne_eq,
    not_true_eq_false, Nat.not_lt.mpr hlength, iotxReportMid, Option.bind_eq_bind,
    Option.bind_some]
  cases hfirst : reportFunc ⟨true, ctx.requests + 1⟩ with
  | none => simp [iotxReportDevinfo, hfirst]
  | some r =>
    obtain ⟨ret, ctx'⟩ := r
    by_cases hret : ret < 0
    · simp [iotxReportDevinfo, hfirst, hret, State.failReturn, State.success]
    · cases hsecond : reportFunc ctx' with
      | none =>
        simp [iotxReportDevinfo, hfirst, hret, State.success, iotxReportFirmwareVersion,
          halGetFirmwareVersion, hsecond]
      | some r =>
        obtain ⟨ret', ctx''⟩ := r
        by_cases hret' : ret' < 0
        · have hne : ret' ≠ 0 := Int.ne_of_lt hret'
          simp [iotxReportDevinfo, hfirst, hret, State.success, iotxReportFirmwareVersion,
            halGetFirmwareVersion, hsecond, hret', hne]
        · simp [iotxReportDevinfo, hfirst, hret, State.success, iotxReportFirmwareVersion,
            halGetFirmwareVersion, hsecond, hret']

theorem report_eq : httpReportFunc server (depth + 1) ⟨true, n⟩ =
    match (server n).perform with
    | none => some (-1, ⟨true, n + 1⟩)
    | some ret =>
      if ret < 0 then some (ret, ⟨true, n + 1⟩)
      else if isExpired (server n) then
        ((iotHttpDeviceNameAuth server (httpReportFunc server depth) true ⟨false, n + 1⟩).map
          Prod.snd).map fun ctx => (ret, ctx)
      else some (if (server n).code = some iotxHttpSuccess ∧ (server n).message ∧
        (server n).messageId then 0 else ret, ⟨true, n + 1⟩) := by
  rw [httpReportFunc, iotHttpSendMessage]
  simp only [reportParam, Bool.not_true, Bool.false_eq_true, if_false]
  generalize server n = response
  obtain ⟨perform, code, message, messageId, token⟩ := response
  rcases perform with _ | ret
  · rfl
  by_cases hret : ret < 0
  · simp [hret]
  rcases code with _ | code
  · simp [hret, isExpired]
  rcases message with _ | _
  · simp [hret, isExpired]
  by_cases hcode : code = iotxHttpSuccess
  · have hne : iotxHttpSuccess ≠ iotxHttpTokenExpiredError := by decide
    simp [hret, hcode, isExpired, hne]
  by_cases hexpired : code = iotxHttpTokenExpiredError
  · simp [hret, hexpired, isExpired, isFailed]
    rfl
  · simp [hret, hcode, hexpired, isExpired]

theorem roundAt_cases (server : Nat → Response) (n : Nat) :
    (isFailed (server n) = true ∧ roundAt server n = (.failed, n + 1)) ∨
    (isFailed (server n) = false ∧ isExpired (server n) = false ∧
      roundAt server n = (.answered, n + 1)) ∨
    (isFailed (server n) = false ∧ isExpired (server n) = true ∧
      isGranted (server (n + 1)) = false ∧ roundAt server n = (.refused, n + 2)) ∨
    (isFailed (server n) = false ∧ isExpired (server n) = true ∧
      isGranted (server (n + 1)) = true ∧ roundAt server n = (.renewed, n + 2)) := by
  unfold roundAt
  cases isFailed (server n) <;> cases isExpired (server n) <;>
    cases isGranted (server (n + 1)) <;> simp

theorem perform_of_not_isFailed (h : isFailed (server n) = false) :
    ∃ ret ≥ 0, (server n).perform = some ret := by
  unfold isFailed at h
  cases hperform : (server n).perform with
  | none => simp [hperform] at h
  | some ret => exact ⟨ret, by simpa [hperform] using h, rfl⟩

theorem report_failed (h : isFailed (server n) = true) :
    ∃ ret < 0, ∀ depth, httpReportFunc server (depth + 1) ⟨true, n⟩
      = some (ret, ⟨true, n + 1⟩) := by
  unfold isFailed at h
  cases hperform : (server n).perform with
  | none => exact ⟨-1, by decide, fun depth => by rw [report_eq, hperform]⟩
  | some ret =>
    have hret : ret < 0 := by simpa [hperform] using h
    exact ⟨ret, hret, fun depth => by rw [report_eq, hperform]; exact if_pos hret⟩

theorem report_answered (h : isFailed (server n) = false) (hexp : isExpired (server n) = false) :
    ∃ ret ≥ 0, ∀ depth, httpReportFunc server (depth + 1) ⟨true, n⟩
      = some (ret, ⟨true, n + 1⟩) := by
  obtain ⟨ret, hret, hperform⟩ := perform_of_not_isFailed h
  refine ⟨if (server n).code = some iotxHttpSuccess ∧ (server n).message ∧ (server n).messageId
    then 0 else ret, ?_, fun depth => ?_⟩
  · split
    · exact Int.le_refl 0
    · exact hret
  · rw [report_eq, hperform, hexp]
    simp only [Int.not_lt.mpr hret, if_false, Bool.false_eq_true]

theorem report_expired (h : isFailed (server n) = false) (hexp : isExpired (server n) = true) :
    ∃ ret ≥ 0, ∀ depth, httpReportFunc server (depth + 1) ⟨true, n⟩ =
      ((iotHttpDeviceNameAuth server (httpReportFunc server depth) true ⟨false, n + 1⟩).map
        Prod.snd).map fun ctx => (ret, ctx) := by
  obtain ⟨ret, hret, hperform⟩ := perform_of_not_isFailed h
  refine ⟨ret, hret, fun depth => ?_⟩
  rw [report_eq, hperform, hexp]
  simp only [Int.not_lt.mpr hret, if_false, if_true]

theorem report_refused (h : isFailed (server n) = false) (hexp : isExpired (server n) = true)
    (hauth : isGranted (server (n + 1)) = false) :
    ∃ ret ≥ 0, ∀ depth, httpReportFunc server (depth + 1) ⟨true, n⟩
      = some (ret, ⟨false, n + 2⟩) := by
  obtain ⟨ret, hret, heq⟩ := report_expired h hexp
  refine ⟨ret, hret, fun depth => ?_⟩
  have hctx : isGranted (server (⟨false, n + 1⟩ : IotxHttp).requests) = false := hauth
  obtain ⟨code, hcode⟩ := auth_refused hctx
  rw [heq, hcode]
  rfl

/-- The two reports of a successful authentication. -/
def bothReports (server : Nat → Response) (depth n : Nat) : Option IotxHttp :=
  (httpReportFunc server depth ⟨true, n⟩).bind fun r =>
    if r.1 < 0 then some r.2 else (httpReportFunc server depth r.2).map Prod.snd

theorem report_renewed (h : isFailed (server n) = false) (hexp : isExpired (server n) = true)
    (hauth : isGranted (server (n + 1)) = true) :
    ∃ ret ≥ 0, ∀ depth, httpReportFunc server (depth + 1) ⟨true, n⟩
      = (bothReports server depth (n + 2)).map fun ctx => (ret, ctx) := by
  obtain ⟨ret, hret, heq⟩ := report_expired h hexp
  refine ⟨ret, hret, fun depth => ?_⟩
  have hctx : isGranted (server (⟨false, n + 1⟩ : IotxHttp).requests) = true := hauth
  rw [heq, auth_granted hctx, bothReports]

/-! ## Depth -/

theorem bothReports_mono {m : Nat} (hmono : ∀ ctx r, httpReportFunc server depth ctx = some r →
      httpReportFunc server m ctx = some r) {r : IotxHttp}
    (h : bothReports server depth n = some r) : bothReports server m n = some r := by
  obtain ⟨first, hfirst, hrest⟩ := Option.bind_eq_some_iff.mp h
  rw [bothReports, hmono _ _ hfirst, Option.bind_some]
  split at hrest
  · rename_i hret
    rw [if_pos hret]
    exact hrest
  · rename_i hret
    obtain ⟨second, hsecond, heq⟩ := Option.map_eq_some_iff.mp hrest
    rw [if_neg hret, hmono _ _ hsecond, ← heq]
    rfl

theorem report_succ {r : Int × IotxHttp} (h : httpReportFunc server depth ctx = some r) :
    httpReportFunc server (depth + 1) ctx = some r := by
  induction depth generalizing ctx r with
  | zero => cases h
  | succ depth ih =>
    obtain ⟨isAuthed, n⟩ := ctx
    cases isAuthed with
    | false =>
      rw [report_unauthed rfl] at h ⊢
      exact h
    | true =>
      rcases roundAt_cases server n with ⟨hf, _⟩ | ⟨hf, he, _⟩ | ⟨hf, he, hg, _⟩ | ⟨hf, he, hg, _⟩
      · obtain ⟨ret, _, heq⟩ := report_failed hf
        rwa [heq] at h ⊢
      · obtain ⟨ret, _, heq⟩ := report_answered hf he
        rwa [heq] at h ⊢
      · obtain ⟨ret, _, heq⟩ := report_refused hf he hg
        rwa [heq] at h ⊢
      · obtain ⟨ret, _, heq⟩ := report_renewed hf he hg
        rw [heq] at h ⊢
        obtain ⟨both, hboth, hr⟩ := Option.map_eq_some_iff.mp h
        rw [bothReports_mono (fun ctx r => ih) hboth, ← hr]
        rfl

theorem report_mono {m : Nat} {r : Int × IotxHttp} (hle : depth ≤ m)
    (h : httpReportFunc server depth ctx = some r) : httpReportFunc server m ctx = some r := by
  induction hle with
  | refl => exact h
  | step _ ih => exact report_succ ih

end Calls

/-! ## Messages left -/

section Left

variable {server : Nat → Response} {depth n : Nat}

variable {rounds left : Nat}

theorem outstanding_add {fresh : Bool}
    (h : outstanding server rounds fresh left n = 0) (more : Nat) :
    outstanding server (rounds + more) fresh left n = 0 := by
  induction rounds generalizing fresh left n with
  | zero =>
    obtain rfl : left = 0 := h
    cases more <;> simp [outstanding]
  | succ rounds ih =>
    rw [Nat.succ_add]
    cases left with
    | zero => rfl
    | succ left =>
      rw [outstanding] at h ⊢
      generalize roundAt server n = round at h ⊢
      obtain ⟨_ | _ | _ | _, n'⟩ := round
      · exact ih h
      · exact ih h
      · rfl
      · exact ih h

/-- A call that begins at request `n` and ends in `ctx` leaves one message less, or none at all
when it ends without a token. A device info that fails takes the firmware version with it. -/
def Takes (server : Nat → Response) (n : Nat) (ret : Int) (ctx : IotxHttp) (rounds : Nat) : Prop :=
  ∀ (more left : Nat) (fresh : Bool), (fresh = true → 1 ≤ left) →
    outstanding server (more + rounds) fresh (left + 1) n =
      if ctx.isAuthed then
        outstanding server more false (if fresh ∧ ret < 0 then left - 1 else left) ctx.requests
      else 0

theorem takes_bothReports {ctx : IotxHttp}
    (hreport : ∀ n ret ctx, httpReportFunc server depth ⟨true, n⟩ = some (ret, ctx) →
      ∃ rounds, Takes server n ret ctx rounds)
    (h : bothReports server depth n = some ctx) :
    ∃ rounds, ∀ more left, outstanding server (more + rounds) true (left + 2) n =
      if ctx.isAuthed then outstanding server more false left ctx.requests else 0 := by
  obtain ⟨⟨ret, mid⟩, hfirst, hrest⟩ := Option.bind_eq_some_iff.mp h
  obtain ⟨rounds, htakes⟩ := hreport n ret mid hfirst
  split at hrest
  · -- the device info fails, and the firmware version is not reported
    rename_i hret
    obtain rfl := Option.some.inj hrest
    have hneg : ret < 0 := hret
    refine ⟨rounds, fun more left => ?_⟩
    rw [htakes more (left + 1) true (fun _ => Nat.le_add_left 1 left)]
    simp [hneg]
  · rename_i hret
    obtain ⟨⟨ret', last⟩, hsecond, rfl⟩ := Option.map_eq_some_iff.mp hrest
    have hleft (more left : Nat) := htakes more (left + 1) true (fun _ => Nat.le_add_left 1 left)
    simp only [hret, and_false, if_false] at hleft
    obtain ⟨isAuthed, m⟩ := mid
    cases isAuthed with
    | false =>
      cases depth with
      | zero => cases hsecond
      | succ depth =>
        rw [report_unauthed rfl, Option.some.injEq, Prod.mk.injEq] at hsecond
        obtain ⟨_, rfl⟩ := hsecond
        exact ⟨rounds, fun more left => hleft more left⟩
    | true =>
      obtain ⟨rounds', htakes'⟩ := hreport m ret' last hsecond
      refine ⟨rounds' + rounds, fun more left => ?_⟩
      rw [← Nat.add_assoc, hleft, if_pos rfl, htakes' more left false (fun h => by cases h)]
      simp

theorem report_takes {ret : Int} {ctx : IotxHttp}
    (h : httpReportFunc server depth ⟨true, n⟩ = some (ret, ctx)) :
    ∃ rounds, Takes server n ret ctx rounds := by
  induction depth generalizing n ret ctx with
  | zero => cases h
  | succ depth ih =>
    rcases roundAt_cases server n with ⟨hf, hround⟩ | ⟨hf, he, hround⟩ | ⟨hf, he, hg, hround⟩ |
      ⟨hf, he, hg, hround⟩
    · obtain ⟨code, hcode, heq⟩ := report_failed hf
      rw [heq, Option.some.injEq, Prod.mk.injEq] at h
      obtain ⟨rfl, rfl⟩ := h
      refine ⟨1, fun more left fresh _ => ?_⟩
      cases fresh <;> simp [outstanding, hround, hcode]
    · obtain ⟨code, hcode, heq⟩ := report_answered hf he
      rw [heq, Option.some.injEq, Prod.mk.injEq] at h
      obtain ⟨rfl, rfl⟩ := h
      refine ⟨1, fun more left fresh _ => ?_⟩
      simp [outstanding, hround, Int.not_lt.mpr hcode]
    · obtain ⟨code, _, heq⟩ := report_refused hf he hg
      rw [heq, Option.some.injEq, Prod.mk.injEq] at h
      obtain ⟨rfl, rfl⟩ := h
      refine ⟨1, fun more left fresh _ => ?_⟩
      simp [outstanding, hround]
    · obtain ⟨code, hcode, heq⟩ := report_renewed hf he hg
      rw [heq] at h
      obtain ⟨last, hboth, hr⟩ := Option.map_eq_some_iff.mp h
      obtain ⟨rfl, rfl⟩ := Prod.mk.inj hr
      obtain ⟨rounds, htakes⟩ := takes_bothReports (fun n ret ctx => ih) hboth
      refine ⟨rounds + 1, fun more left fresh _ => ?_⟩
      rw [← Nat.add_assoc, outstanding, hround]
      simp only [htakes more left, Int.not_lt.mpr hcode, and_false, if_false]

theorem bothReports_isSome_of
    (hback : ∀ r ≤ rounds, ∀ left fresh n, outstanding server r fresh (left + 1) n = 0 →
      ∃ depth, (httpReportFunc server depth ⟨true, n⟩).isSome)
    (h : outstanding server rounds true (left + 2) n = 0) :
    ∃ depth, (bothReports server depth n).isSome := by
  obtain ⟨depth, hsome⟩ := hback rounds (Nat.le_refl rounds) (left + 1) true n h
  obtain ⟨⟨ret, mid⟩, hfirst⟩ := Option.isSome_iff_exists.mp hsome
  obtain ⟨taken, htakes⟩ := report_takes hfirst
  have hleft (more : Nat) := htakes more (left + 1) true (fun _ => Nat.le_add_left 1 left)
  by_cases hret : ret < 0
  · exact ⟨depth, by rw [bothReports, hfirst, Option.bind_some, if_pos hret]; rfl⟩
  · simp only [hret, and_false, if_false] at hleft
    obtain ⟨isAuthed, m⟩ := mid
    cases isAuthed with
    | false =>
      refine ⟨depth + 1, ?_⟩
      rw [bothReports, report_succ hfirst, Option.bind_some, if_neg hret, report_unauthed rfl]
      rfl
    | true =>
      simp only [if_true] at hleft
      -- the device info is answered before none is left, so the rounds go on behind it
      have hle : taken ≤ rounds := by
        by_contra hlt
        have hzero := outstanding_add h (taken - rounds)
        rw [show rounds + (taken - rounds) = 0 + taken by omega, hleft 0] at hzero
        cases hzero
      obtain ⟨more, rfl⟩ := Nat.exists_eq_add_of_le' hle
      rw [hleft more] at h
      obtain ⟨depth', hsome'⟩ := hback more (Nat.le_add_right more taken) left false m h
      obtain ⟨⟨ret', last⟩, hsecond⟩ := Option.isSome_iff_exists.mp hsome'
      refine ⟨max depth depth', ?_⟩
      rw [bothReports, report_mono (Nat.le_max_left _ _) hfirst, Option.bind_some, if_neg hret,
        report_mono (Nat.le_max_right _ _) hsecond]
      rfl

theorem report_isSome_of {fresh : Bool} (h : outstanding server rounds fresh (left + 1) n = 0) :
    ∃ depth, (httpReportFunc server depth ⟨true, n⟩).isSome := by
  induction rounds using Nat.strongRecOn generalizing left fresh n with
  | _ rounds ih =>
    cases rounds with
    | zero => cases h
    | succ rounds =>
      rcases roundAt_cases server n with ⟨hf, hround⟩ | ⟨hf, he, hround⟩ | ⟨hf, he, hg, hround⟩ |
        ⟨hf, he, hg, hround⟩
      · obtain ⟨code, _, heq⟩ := report_failed hf
        exact ⟨1, by rw [heq]; rfl⟩
      · obtain ⟨code, _, heq⟩ := report_answered hf he
        exact ⟨1, by rw [heq]; rfl⟩
      · obtain ⟨code, _, heq⟩ := report_refused hf he hg
        exact ⟨1, by rw [heq]; rfl⟩
      · obtain ⟨code, _, heq⟩ := report_renewed hf he hg
        rw [outstanding, hround] at h
        obtain ⟨depth, hboth⟩ := bothReports_isSome_of
          (fun r hr left fresh n => ih r (Nat.lt_succ_of_le hr)) h
        refine ⟨depth + 1, ?_⟩
        rw [heq, Option.isSome_map]
        exact hboth

end Left

/-! ## Calls that return -/

/-- The two functions that call each other. -/
inductive Call where
  | sendMessage (msgParam : Option IotxHttpMessageParam)
  | deviceNameAuth

def Call.run (server : Nat → Response) (depth : Nat) (handleValid : Bool) (ctx : IotxHttp) :
    Call → Option (Int × IotxHttp)
  | .sendMessage msgParam => iotHttpSendMessage server depth handleValid msgParam ctx
  | .deviceNameAuth => iotHttpDeviceNameAuth server (httpReportFunc server depth) handleValid ctx

/-- The nesting of the call is bounded, so it returns. -/
def Bounded (server : Nat → Response) (handleValid : Bool) (ctx : IotxHttp) (call : Call) : Prop :=
  ∃ depth, (call.run server depth handleValid ctx).isSome

/-- What the call sends at all, it gets answered: at some moment none of its messages is left. An
authentication that gets its token has two. -/
def Settles (server : Nat → Response) (handleValid : Bool) (ctx : IotxHttp) : Call → Prop
  | .sendMessage msgParam =>
    handleValid = true → msgParam = some reportParam → ctx.isAuthed = true →
      ∃ rounds, outstanding server rounds false 1 ctx.requests = 0
  | .deviceNameAuth =>
    handleValid = true → isGranted (server ctx.requests) = true →
      ∃ rounds, outstanding server rounds true 2 (ctx.requests + 1) = 0

section Returns

variable {server : Nat → Response} {handleValid : Bool} {ctx : IotxHttp}

theorem report_isSome_iff {n : Nat} :
    (∃ depth, (httpReportFunc server depth ⟨true, n⟩).isSome) ↔
      ∃ rounds, outstanding server rounds false 1 n = 0 := by
  constructor
  · rintro ⟨depth, h⟩
    obtain ⟨⟨ret, last⟩, heq⟩ := Option.isSome_iff_exists.mp h
    obtain ⟨rounds, htakes⟩ := report_takes heq
    refine ⟨0 + rounds, ?_⟩
    rw [htakes 0 0 false (fun h => by cases h)]
    simp [outstanding]
  · rintro ⟨rounds, h⟩
    exact report_isSome_of h

theorem bothReports_isSome_iff {n : Nat} :
    (∃ depth, (bothReports server depth n).isSome) ↔
      ∃ rounds, outstanding server rounds true 2 n = 0 := by
  constructor
  · rintro ⟨depth, h⟩
    obtain ⟨last, heq⟩ := Option.isSome_iff_exists.mp h
    obtain ⟨rounds, htakes⟩ := takes_bothReports (fun n ret ctx => report_takes) heq
    refine ⟨0 + rounds, ?_⟩
    rw [htakes 0 0]
    simp [outstanding]
  · rintro ⟨rounds, h⟩
    exact bothReports_isSome_of (fun r _ left fresh n => report_isSome_of) h

theorem sendMessage_unsent {msgParam : Option IotxHttpMessageParam} (depth : Nat)
    (h : ¬ (handleValid = true ∧ msgParam = some reportParam ∧ ctx.isAuthed = true)) :
    iotHttpSendMessage server (depth + 1) handleValid msgParam ctx = some (-1, ctx) := by
  cases handleValid with
  | false => simp [iotHttpSendMessage]
  | true =>
    obtain _ | ⟨request, response, topic⟩ := msgParam
    · simp [iotHttpSendMessage]
    · cases hauthed : ctx.isAuthed with
      | false => simp [iotHttpSendMessage, hauthed]
      | true =>
        cases request <;> cases response <;> cases topic
        all_goals simp [iotHttpSendMessage, hauthed]
        exact absurd ⟨rfl, rfl, hauthed⟩ h

theorem deviceNameAuth_isSome {depth : Nat} (h : isGranted (server ctx.requests) = true) :
    (iotHttpDeviceNameAuth server (httpReportFunc server depth) true ctx).isSome
      = (bothReports server depth (ctx.requests + 1)).isSome := by
  rw [← Option.isSome_map (f := Prod.snd), auth_granted h, bothReports]

end Returns

/-- A call returns exactly when at some moment none of its messages is left to be answered. -/
theorem bounded_iff (server : Nat → Response) (handleValid : Bool) (ctx : IotxHttp) (call : Call) :
    Bounded server handleValid ctx call ↔ Settles server handleValid ctx call := by
  cases call with
  | sendMessage msgParam =>
    by_cases hsent : handleValid = true ∧ msgParam = some reportParam ∧ ctx.isAuthed = true
    · obtain ⟨rfl, rfl, hauthed⟩ := hsent
      have hctx : ctx = ⟨true, ctx.requests⟩ := by rw [← hauthed]
      have hiff : Bounded server true ctx (.sendMessage (some reportParam)) ↔
          ∃ depth, (httpReportFunc server depth ⟨true, ctx.requests⟩).isSome := by
        rw [← hctx]
        exact Iff.rfl
      rw [hiff, report_isSome_iff]
      exact ⟨fun h _ _ _ => h, fun h => h rfl rfl hauthed⟩
    · refine iff_of_true ⟨1, ?_⟩ (fun h1 h2 h3 => absurd ⟨h1, h2, h3⟩ hsent)
      show (iotHttpSendMessage server (0 + 1) handleValid msgParam ctx).isSome = true
      rw [sendMessage_unsent 0 hsent]
      rfl
  | deviceNameAuth =>
    cases handleValid with
    | false => exact iff_of_true ⟨0, rfl⟩ (fun h => by cases h)
    | true =>
      by_cases hgranted : isGranted (server ctx.requests) = true
      · have hiff : Bounded server true ctx .deviceNameAuth ↔
            ∃ depth, (bothReports server depth (ctx.requests + 1)).isSome :=
          exists_congr fun depth => by rw [← deviceNameAuth_isSome hgranted]; exact Iff.rfl
        rw [hiff, bothReports_isSome_iff]
        exact ⟨fun h _ _ => h, fun h => h rfl hgranted⟩
      · refine iff_of_true ⟨0, ?_⟩ (fun _ h => absurd h hgranted)
        obtain ⟨ret, heq⟩ : ∃ ret, iotHttpDeviceNameAuth server (httpReportFunc server 0) true ctx
            = some (ret, ⟨false, ctx.requests + 1⟩) :=
          auth_refused (by simpa using hgranted)
        show (iotHttpDeviceNameAuth server (httpReportFunc server 0) true ctx).isSome = true
        rw [heq]
        rfl

/-! ## A server that keeps answering that the token has expired -/

/-- Every message is answered token expired, every authentication with a token. -/
def expiringServer (n : Nat) : Response where
  perform := some 100
  code := some (if n % 2 = 0 then iotxHttpTokenExpiredError else iotxHttpSuccess)
  message := true
  messageId := false
  token := some 32

theorem roundAt_expiringServer (m : Nat) :
    roundAt expiringServer (2 * m) = (.renewed, 2 * (m + 1)) := by
  have heven : (2 * m) % 2 = 0 := by omega
  have hodd : (2 * m + 1) % 2 ≠ 0 := by omega
  simp only [roundAt, isFailed, isExpired, isGranted, expiringServer, heven, hodd, if_true,
    if_false]
  rfl

theorem outstanding_expiringServer (rounds left m : Nat) (fresh : Bool) :
    outstanding expiringServer rounds fresh (left + 1) (2 * m) ≠ 0 := by
  induction rounds generalizing left m fresh with
  | zero => exact Nat.succ_ne_zero left
  | succ rounds ih =>
    rw [outstanding, roundAt_expiringServer]
    exact ih (left + 1) (m + 1) true

theorem expiringServer_unbounded :
    ¬ Bounded expiringServer true ⟨true, 0⟩ (.sendMessage (some reportParam)) := by
  intro h
  obtain ⟨rounds, hzero⟩ := report_isSome_iff.mp h
  exact outstanding_expiringServer rounds 0 0 false hzero

end AliyunIot.Http
