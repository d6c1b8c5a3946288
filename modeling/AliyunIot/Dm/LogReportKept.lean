import AliyunIot.Dm.LogReport
import AliyunIot.Infra.Strtod
import AliyunIot.Lib.First

/-!
# What the log report uploads

`logKept_run`: in a run whose steps are all `Careful`, nothing is written outside the buffers,
no NULL buffer is used, nothing is divided by zero, and every text that is uploaded is a JSON
object with the entries pushed since the buffer was last cleared. `log_size` is then the size
of the log in a test for room just when something was pushed since.
-/

namespace AliyunIot.Dm.LogReport

open Lib Lib.Json Cjson Format

/-- What was pushed since the buffer was last cleared. -/
def pending (trace : List LogEvent) : List (List UInt8) :=
  trace.foldl (fun pushes e =>
    match e with
    | .started | .uploaded _ => []
    | .pushed data => pushes ++ [data]
    | .tested _ _ => pushes) []

def entriesText (entries : List (List UInt8)) : List UInt8 :=
  (entries.map fun e => quote e ++ [44]).flatten

def logText (entries : List (List UInt8)) : List UInt8 :=
  subprefixText ++ (joined (entries.map quote) ++ text "]\x7d")

/-- A text that is uploaded after `before` is a JSON object with the entries pushed. -/
def UploadKept (before : List LogEvent) (t : List UInt8) : Prop :=
  (∃ entries, (pending before).flatten = entriesText entries ∧ t = logText entries) ∧
    ∃ size, IsValue rfc8259 2 (.object size) t

def UploadsKept (trace : List LogEvent) : Prop :=
  ∀ before t after, trace = before ++ .uploaded t :: after → UploadKept before t

def TestsKept (trace : List LogEvent) : Prop :=
  ∀ before size filled after, trace = before ++ .tested size filled :: after → size = filled

/-- A test for room before anything was pushed into a cleared buffer. -/
def TestsFresh (trace : List LogEvent) : Prop :=
  ∃ before size filled after, trace = before ++ .tested size filled :: after ∧ pending before = []

section Pending

variable {trace : List LogEvent} {data : List UInt8}

theorem pending_pushed : pending (trace ++ [.pushed data]) = pending trace ++ [data] := by
  simp only [pending, List.foldl_append, List.foldl_cons, List.foldl_nil]

theorem pending_started : pending (trace ++ [.started]) = [] := by
  simp only [pending, List.foldl_append, List.foldl_cons, List.foldl_nil]

theorem pending_tested {size filled : Nat} :
    pending (trace ++ [.tested size filled]) = pending trace := by
  simp only [pending, List.foldl_append, List.foldl_cons, List.foldl_nil]

end Pending

/-! ## The buffer -/

/-- The buffer with these bytes at its start and zeros behind them. -/
def filled (c : List UInt8) : List UInt8 := c ++ List.replicate (logPollSize - c.length) 0

/-- The log holds these bytes, and is written to behind them. -/
def fill (s : LogReport) (c : List UInt8) : LogReport :=
  { s with
    gLogPoll := some (filled c)
    currentLogPos := some c.length }

variable {s : LogReport} {c d : List UInt8}

theorem length_filled (h : c.length ≤ logPollSize) : (filled c).length = logPollSize := by
  rw [filled, List.length_append, List.length_replicate]
  omega

theorem overwrite_filled {e : List UInt8} (h : c.length + d.length ≤ logPollSize)
    (hle : e.length ≤ d.length) : overwrite (filled (c ++ e)) c.length d = filled (c ++ d) := by
  have htake : (filled (c ++ e)).take c.length = c := by
    rw [filled, List.append_assoc, List.take_left]
  have hpast : (c ++ e).drop (c.length + d.length) = [] :=
    List.drop_eq_nil_of_le (by rw [List.length_append]; omega)
  have hdrop : (filled (c ++ e)).drop (c.length + d.length) =
      List.replicate (logPollSize - (c ++ d).length) 0 := by
    rw [filled, List.drop_append, hpast, List.nil_append, List.drop_replicate]
    simp only [List.length_append]
    congr 1
    omega
  rw [overwrite, htake, hdrop, filled, List.append_assoc]

theorem pushLog_over {e : List UInt8} (hd : d ≠ []) (h : c.length + d.length ≤ logPollSize)
    (hle : e.length ≤ d.length) :
    { s with
        gLogPoll := some (filled (c ++ e))
        currentLogPos := some c.length }.pushLog d =
      some (c.length + d.length, s.fill (c ++ d)) := by
  have hbuf : c.length + d.length ≤ (filled (c ++ e)).length := by
    rw [length_filled (by rw [List.length_append]; omega)]
    exact h
  simp only [pushLog, fill, if_neg hd, if_pos hbuf, overwrite_filled h hle, List.length_append]

theorem pushLog_fill (hd : d ≠ []) (h : c.length + d.length ≤ logPollSize) :
    (s.fill c).pushLog d = some (c.length + d.length, s.fill (c ++ d)) := by
  have hover := pushLog_over (s := s) (e := []) hd h (Nat.zero_le _)
  rwa [List.append_nil] at hover

theorem tail_eq : text "]\x7d" = [93, 125] := by decide

theorem addTail_fill {b : UInt8} (h : c.length + 2 ≤ logPollSize) :
    (s.fill (c ++ [b])).addTail = some (c.length + 2, s.fill (c ++ text "]\x7d")) := by
  have hlen : (c ++ [b]).length = c.length + 1 := List.length_append
  have hover := pushLog_over (s := s) (c := c) (d := text "]\x7d") (e := [b])
    (by rw [tail_eq]; simp)
    (by rw [tail_eq]; exact h) (by rw [tail_eq]; simp)
  simp only [addTail, fill, hlen]
  rw [hover, tail_eq]
  rfl

theorem length_subprefixText : subprefixText.length = 51 := by decide

theorem filled_nil : filled [] = List.replicate logPollSize 0 := by
  rw [filled, List.nil_append, List.length_nil, Nat.sub_zero]

theorem addLogHeader_cleared :
    { s with
        gLogPoll := some (List.replicate logPollSize 0)
        currentLogPos := some 0 }.addLogHeader = some (s.fill subprefixText) := by
  have hlen := length_subprefixText
  have hne : subprefixText ≠ [] := fun h => by rw [h] at hlen; cases hlen
  have hpush := pushLog_fill (s := s) (c := []) hne (by rw [hlen]; decide)
  rw [fill, filled_nil, List.nil_append, List.length_nil] at hpush
  rw [addLogHeader, hpush, Option.map_some]

theorem resetLogPoll_some {buf : List UInt8} (h : s.gLogPoll = some buf) :
    s.resetLogPoll = some ((s.fill subprefixText).record .started) := by
  simp only [resetLogPoll, h, addLogHeader_cleared, Option.map_some]

theorem createLogPoll_malloc :
    s.createLogPoll true = some ((s.fill subprefixText).record .started) := by
  rw [createLogPoll, if_pos rfl, resetLogPoll_some rfl]
  unfold removeLogPoll
  split <;> rfl

theorem params_fill (h0 : (0 : UInt8) ∉ c) (hsize : s.logSize = c.length) :
    (s.fill c).params = c := by
  have htake : (filled c).take (c.length + 1) =
      c ++ (List.replicate (logPollSize - c.length) 0).take 1 := by
    rw [filled, List.take_append, List.take_of_length_le (Nat.le_succ _), Nat.add_sub_cancel_left]
  simp only [params, fill, hsize, htake, precision]
  rw [List.takeWhile_append_of_pos fun b hb => by simpa using fun hb0 : b = 0 => h0 (hb0 ▸ hb)]
  rw [List.take_replicate]
  cases min 1 (logPollSize - c.length) with
  | zero => simp
  | succ n => simp [List.replicate_succ]

def uploadedTo (s : LogReport) (size : Nat) (t : List UInt8) (assembled : Bool) : LogReport :=
  { s with
    logSize := size
    trace := s.trace ++ if assembled then [.uploaded t] else [] }

theorem upload_fill {b : UInt8} (assembled : Bool) (h0 : (0 : UInt8) ∉ c)
    (h : c.length + 2 ≤ logPollSize) :
    (s.fill (c ++ [b])).upload assembled =
      some (((s.uploadedTo (c.length + 2) (c ++ text "]\x7d") assembled).fill subprefixText).record
        .started) := by
  have hlen : (c ++ text "]\x7d").length = c.length + 2 := by
    rw [List.length_append, tail_eq, List.length_cons, List.length_singleton]
  have h0' : (0 : UInt8) ∉ c ++ text "]\x7d" := by
    rw [List.mem_append, tail_eq]
    exact not_or.mpr ⟨h0, by decide⟩
  have hparams := params_fill (s := { s with logSize := c.length + 2 }) h0' hlen.symm
  rw [upload, addTail_fill h, Option.bind_some]
  cases assembled with
  | false =>
    simp only [Bool.false_eq_true, if_false, uploadedTo]
    rw [resetLogPoll_some rfl]
    simp only [record, fill, List.append_nil]
  | true =>
    have htext : { s.fill (c ++ text "]\x7d") with logSize := c.length + 2 }.params =
        c ++ text "]\x7d" := hparams
    simp only [if_true, htext, uploadedTo]
    rw [resetLogPoll_some rfl]
    simp only [record, fill]

/-! ## The texts -/

theorem entriesText_append {es fs : List (List UInt8)} :
    entriesText (es ++ fs) = entriesText es ++ entriesText fs := by
  rw [entriesText, List.map_append, List.flatten_append, entriesText, entriesText]

theorem entriesText_eq {es : List (List UInt8)} (h : es ≠ []) :
    entriesText es = joined (es.map quote) ++ [44] := by
  induction es with
  | nil => exact absurd rfl h
  | cons e es ih =>
    cases es with
    | nil => simp [entriesText, joined]
    | cons e' es =>
      have hcons : entriesText (e :: e' :: es) = quote e ++ 44 :: entriesText (e' :: es) := by
        simp [entriesText]
      have hmap : (e' :: es).map quote ≠ [] := by simp
      rw [hcons, ih (List.cons_ne_nil _ _), List.map_cons (l := e' :: es), joined_cons hmap]
      simp only [List.append_assoc, List.cons_append]

def plainElement (e : List UInt8) : Element := ⟨[], .string, quote e, []⟩

def templateMember : Member :=
  ⟨[], text "template", [], ⟨[32], .string, quote (text "traceContext logContent"), []⟩⟩

def contentsMember (es : List (List UInt8)) : Member :=
  ⟨[], text "contents", [], ⟨[], .array es.length, 91 :: (joined (es.map quote) ++ [93]), []⟩⟩

theorem subprefix_eq :
    subprefixText =
      123 :: (templateMember.bytes ++ 44 :: (quote (text "contents") ++ 58 :: [91])) := by decide

theorem templateMember_ok {value : Kind → List UInt8 → Prop}
    (h : value .string (quote (text "traceContext logContent"))) :
    templateMember.Ok rfc8259 value := by
  have hkey : Json.isBody (text "template") = true := by decide
  refine ⟨spaces_nil, hkey, spaces_nil, fun b hb => ?_, h, spaces_nil⟩
  rw [List.mem_singleton.mp hb]
  exact .inr (.inr (.inr rfl))

theorem contentsMember_ok {es : List (List UInt8)} {value : Kind → List UInt8 → Prop}
    (h : value (.array es.length) (91 :: (joined (es.map quote) ++ [93]))) :
    (contentsMember es).Ok rfc8259 value := by
  have hkey : Json.isBody (text "contents") = true := by decide
  exact ⟨spaces_nil, hkey, spaces_nil, spaces_nil, h, spaces_nil⟩

theorem isValue_logText {es : List (List UInt8)} (hne : es ≠ [])
    (hes : ∀ e ∈ es, Json.isBody e = true) : IsValue rfc8259 2 (.object 2) (logText es) := by
  have harray : IsValue rfc8259 1 (.array es.length) (91 :: (joined (es.map quote) ++ [93])) := by
    refine ⟨_, rfl, .inr ⟨es.map plainElement, by simpa using hne, List.length_map _, ?_, ?_⟩⟩
    · intro e he
      obtain ⟨body, hbody, rfl⟩ := List.mem_map.mp he
      exact ⟨spaces_nil, ⟨body, hes body hbody, rfl⟩, spaces_nil⟩
    · rw [List.map_map]
      congr 2
      funext e
      simp [plainElement, Element.bytes]
  have htemplate : Json.isBody (text "traceContext logContent") = true := by decide
  refine ⟨_, ?_, .inr ⟨[templateMember, contentsMember es], by simp, rfl, ?_, rfl⟩⟩
  · rw [logText, subprefix_eq, tail_eq, List.map_cons, List.map_singleton, joined_cons (by simp),
      joined]
    simp [contentsMember, Member.bytes, Element.bytes]
  · intro m hm
    rcases List.mem_cons.mp hm with rfl | hm
    · exact templateMember_ok ⟨_, htemplate, rfl⟩
    · rw [List.mem_singleton.mp hm]
      exact contentsMember_ok harray

theorem zero_not_mem_entriesText {es : List (List UInt8)} (h : ∀ e ∈ es, Json.isBody e = true) :
    (0 : UInt8) ∉ entriesText es := fun h0 => by
  obtain ⟨l, hl, h0⟩ := List.mem_flatten.mp h0
  obtain ⟨e, he, rfl⟩ := List.mem_map.mp hl
  have hbody := zero_not_mem_of_isBody (h e he)
  simp [quote, hbody] at h0

/-! ## What a run keeps -/

/-- What is so of an event, after the ones before it. -/
def EventKept (before : List LogEvent) : LogEvent → Prop
  | .uploaded t => UploadKept before t
  | .tested size filled => size = filled ↔ pending before ≠ []
  | _ => True

structure Sound (s : LogReport) : Prop where
  interval : s.sampleInterval ≠ 0
  msgArray : s.msgArray.length = msgIdLen
  size_ne : s.logSize ≠ subprefixText.length
  size_le : s.logSize ≤ logPollSize
  events : ∀ before e after, s.trace = before ++ e :: after → EventKept before e

/-- The text of an entry that is not yet at its end. -/
def opened : Option (List UInt8) → List UInt8
  | none => []
  | some part => 34 :: part

def content (entries : List (List UInt8)) (part : Option (List UInt8)) : List UInt8 :=
  entriesText entries ++ opened part

structure Holds (s : LogReport) (entries : List (List UInt8)) (part : Option (List UInt8)) : Prop
    extends Sound s where
  poll : s.gLogPoll = some (filled (subprefixText ++ content entries part))
  pos : s.currentLogPos = some (subprefixText ++ content entries part).length
  pushed : (pending s.trace).flatten = content entries part
  bodies : ∀ e ∈ entries, Json.isBody e = true
  part_body : ∀ p ∈ part, Json.isBody p = true
  le : (subprefixText ++ content entries part).length ≤ overflowLen
  size : pending s.trace ≠ [] → s.logSize = (subprefixText ++ content entries part).length

structure Off (s : LogReport) : Prop extends Sound s where
  poll : s.gLogPoll = none
  pos : s.currentLogPos = none

/-- Between the steps: an entry is begun just when the state is `RUNNING`. -/
def Inv (s : LogReport) : Prop :=
  s.gReportStatus ≠ .done ∧
    ((s.switchStatus = true ∧
        ∃ entries part, Holds s entries part ∧ (s.gReportStatus = .running ↔ part.isSome = true)) ∨
      (s.switchStatus = false ∧ Off s ∧ s.gReportStatus ≠ .running))

theorem inv_init : Inv init := by
  refine ⟨by decide,
    .inr ⟨rfl, ⟨⟨by decide, by decide, ?_, Nat.zero_le _, ?_⟩, rfl, rfl⟩, by decide⟩⟩
  · rw [length_subprefixText]
    decide
  · intro before e after h
    simp [init] at h

theorem fill_eq (hpoll : s.gLogPoll = some (filled c)) (hpos : s.currentLogPos = some c.length) :
    s.fill c = s := by
  rw [fill, ← hpoll, ← hpos]

section Steps

variable {entries : List (List UInt8)} {part : Option (List UInt8)} {assembled : Bool}

theorem zero_not_mem_content (hes : ∀ e ∈ entries, Json.isBody e = true)
    (hp : ∀ p ∈ part, Json.isBody p = true) :
    (0 : UInt8) ∉ subprefixText ++ content entries part := by
  have hpart : (0 : UInt8) ∉ opened part := by
    cases part with
    | none => exact List.not_mem_nil
    | some p => simp [opened, zero_not_mem_of_isBody (hp p rfl)]
  simp only [content, List.mem_append, not_or]
  exact ⟨by decide, zero_not_mem_entriesText hes, hpart⟩

theorem Sound.holds_started (h : Sound s) :
    Holds ((s.fill subprefixText).record .started) [] none where
  interval := h.interval
  msgArray := h.msgArray
  size_ne := h.size_ne
  size_le := h.size_le
  events := forall_split_concat h.events trivial
  poll := by rw [content, entriesText, opened]; simp [record, fill]
  pos := by rw [content, entriesText, opened]; simp [record, fill]
  pushed := congrArg List.flatten pending_started
  bodies := fun e he => absurd he List.not_mem_nil
  part_body := fun p hp => nomatch hp
  le := by
    rw [content, entriesText, opened]
    decide
  size := fun hne => absurd pending_started hne

theorem Holds.upload (assembled : Bool) (h : Holds s entries none) (hne : entries ≠ []) :
    ∃ s', s.upload assembled = some s' ∧ Holds s' [] none ∧ s'.switchStatus = s.switchStatus ∧
      s'.gReportStatus = s.gReportStatus := by
  have hcontent : subprefixText ++ content entries none =
      (subprefixText ++ joined (entries.map quote)) ++ [44] := by
    rw [content, opened, List.append_nil, entriesText_eq hne, List.append_assoc]
  have hzero := zero_not_mem_content h.bodies h.part_body
  have hle := h.le
  rw [hcontent] at hzero hle
  have hfill := fill_eq h.poll h.pos
  rw [hcontent] at hfill
  generalize hc : subprefixText ++ joined (entries.map quote) = c at hzero hle hfill
  have hlen : (c ++ [44]).length = c.length + 1 := List.length_append
  have hlong : subprefixText.length ≤ c.length := by
    rw [← hc, List.length_append]
    exact Nat.le_add_right _ _
  have hsmall : overflowLen + 10 = logPollSize := rfl
  have hupload := upload_fill (s := s) (b := 44) assembled
    (fun h0 => hzero (List.mem_append_left _ h0)) (by omega)
  rw [hfill] at hupload
  have htext : c ++ text "]\x7d" = logText entries := by rw [← hc, logText, List.append_assoc]
  have hkept : UploadKept s.trace (c ++ text "]\x7d") := by
    rw [htext]
    refine ⟨⟨entries, ?_, rfl⟩, 2, isValue_logText hne h.bodies⟩
    rw [h.pushed, content, opened, List.append_nil]
  have hsound : Sound (s.uploadedTo (c.length + 2) (c ++ text "]\x7d") assembled) := by
    refine ⟨h.interval, h.msgArray, ?_, ?_, ?_⟩
    · show c.length + 2 ≠ subprefixText.length
      omega
    · show c.length + 2 ≤ logPollSize
      omega
    · cases assembled with
      | false =>
        intro before e after htrace
        exact h.events before e after (by rw [← htrace]; simp [uploadedTo])
      | true => exact forall_split_concat h.events hkept
  exact ⟨_, hupload, hsound.holds_started, rfl, rfl⟩

def Room (s : LogReport) (data : List UInt8) : Prop :=
  toUnsigned (s.logSize + data.length) < overflowLen

theorem toUnsigned_natCast {n : Nat} (h : n < 2 ^ 32) : toUnsigned n = n := by
  rw [toUnsigned, Int.emod_eq_of_lt (by omega) (by omega), Int.toNat_natCast]

variable {data : List UInt8}

theorem Sound.room_iff (h : Sound s) (hlen : data.length < localPostLen) :
    Room s data ↔ s.logSize + data.length < overflowLen := by
  have hle := h.size_le
  have hpoll : logPollSize = 1874 := rfl
  have hlocal : localPostLen = 150 := rfl
  rw [Room, ← Int.natCast_add, toUnsigned_natCast (by omega)]

theorem Holds.content_eq_nil (h : Holds s entries part) (hp : pending s.trace = []) :
    content entries part = [] := by
  rw [← h.pushed, hp]
  rfl

theorem Holds.fits (h : Holds s entries part)
    (hlen : data.length < localPostLen) (hroom : Room s data) :
    (subprefixText ++ content entries part).length + data.length ≤ overflowLen := by
  have hroom' := (h.toSound.room_iff hlen).mp hroom
  by_cases hp : pending s.trace = []
  · have hheader := length_subprefixText
    have hlocal : localPostLen = 150 := rfl
    have hover : overflowLen = 1864 := rfl
    rw [h.content_eq_nil hp, List.append_nil]
    omega
  · have hsize := h.size hp
    omega

theorem Holds.tested (h : Holds s entries part) :
    EventKept s.trace (.tested s.logSize (s.currentLogPos.getD 0)) := by
  rw [h.pos]
  constructor
  · intro heq hp
    rw [h.content_eq_nil hp, List.append_nil] at heq
    exact h.size_ne heq
  · exact h.size

/-- What a push leaves that does not come to an upload. -/
def pushedTo (s : LogReport) (c data : List UInt8) : LogReport :=
  { ((s.record (.tested s.logSize (s.currentLogPos.getD 0))).fill (c ++ data)) with
    logSize := c.length + data.length }.record (.pushed data)

theorem logPost_eq (hpoll : s.gLogPoll = some (filled c))
    (hpos : s.currentLogPos = some c.length) (hne : data ≠ []) (hroom : Room s data)
    (hfits : c.length + data.length ≤ logPollSize) :
    s.logPost data assembled =
      if c.length + data.length > reportLen ∧ s.gReportStatus = .done then
        (s.pushedTo c data).upload assembled
      else some (s.pushedTo c data) := by
  have hfill := fill_eq (s := s.record (.tested s.logSize (s.currentLogPos.getD 0))) hpoll hpos
  have hpush := pushLog_fill (s := s.record (.tested s.logSize (s.currentLogPos.getD 0))) hne hfits
  rw [hfill] at hpush
  have hroom' : toUnsigned ((s.record (.tested s.logSize (s.currentLogPos.getD 0))).logSize +
      data.length) < overflowLen := hroom
  simp only [logPost, if_neg hne, if_pos hroom', hpush, Option.bind_some]
  rfl

theorem Holds.logPost (assembled : Bool) {entries' : List (List UInt8)}
    {part' : Option (List UInt8)} (h : Holds s entries part) (hne : data ≠ [])
    (hlen : data.length < localPostLen) (hroom : Room s data)
    (htext : content entries' part' = content entries part ++ data)
    (hbodies : ∀ e ∈ entries', Json.isBody e = true) (hpart : ∀ p ∈ part', Json.isBody p = true)
    (hdone : s.gReportStatus = .done → part' = none) :
    ∃ s' entries'', s.logPost data assembled = some s' ∧ Holds s' entries'' part' ∧
      s'.switchStatus = s.switchStatus ∧ s'.gReportStatus = s.gReportStatus := by
  have hfits := h.fits hlen hroom
  have hsmall : overflowLen + 10 = logPollSize := rfl
  have hlong : subprefixText ++ content entries' part' =
      (subprefixText ++ content entries part) ++ data := by
    rw [htext, List.append_assoc]
  have hlonger : (subprefixText ++ content entries' part').length =
      (subprefixText ++ content entries part).length + data.length := by
    rw [hlong]
    exact List.length_append
  have hdata := List.length_pos_iff.mpr hne
  have hheader : subprefixText.length ≤ (subprefixText ++ content entries part).length := by
    rw [List.length_append]
    exact Nat.le_add_right _ _
  rw [logPost_eq h.poll h.pos hne hroom (by omega)]
  have hholds : Holds (s.pushedTo (subprefixText ++ content entries part) data) entries' part' := by
    refine ⟨⟨h.interval, h.msgArray, ?_, ?_, ?_⟩, ?_, ?_, ?_, hbodies, hpart, ?_, ?_⟩
    · show _ + data.length ≠ _
      omega
    · show _ + data.length ≤ _
      omega
    · exact forall_split_concat (forall_split_concat h.events h.tested) trivial
    · rw [hlong]
      rfl
    · rw [hlong]
      rfl
    · show (pending ((s.trace ++ [_]) ++ [_])).flatten = _
      rw [pending_pushed, pending_tested, List.flatten_append, h.pushed, htext,
        List.flatten_singleton]
    · rw [hlonger]
      exact hfits
    · intro _
      rw [hlonger]
      rfl
  split
  next hfull =>
    obtain rfl := hdone hfull.2
    have hne' : entries' ≠ [] := by
      rintro rfl
      have hempty : content entries part ++ data = [] := htext.symm
      exact hne (List.append_eq_nil_iff.mp hempty).2
    obtain ⟨s', hupload, hholds', hswitch, hstatus⟩ := hholds.upload assembled hne'
    exact ⟨s', [], hupload, hholds', hswitch, hstatus⟩
  next => exact ⟨_, entries', rfl, hholds, rfl, rfl⟩

/-! ## The lines -/

theorem isPlain_of_mem_decimal {i : Int} {b : UInt8} (h : b ∈ decimal i) : isPlain b = true := by
  have hplain : isDigit b = true → isPlain b = true := by
    intro hdigit
    simp only [isDigit, Bool.and_eq_true, decide_eq_true_eq, UInt8.le_iff_toNat_le,
      UInt8.reduceToNat] at hdigit
    simp only [isPlain, Bool.and_eq_true, decide_eq_true_eq, ne_eq, ← UInt8.toNat_inj,
      UInt8.le_iff_toNat_le, UInt8.reduceToNat]
    omega
  rcases mem_decimal h with rfl | h
  · rfl
  · exact hplain h

theorem isBody_decimal (i : Int) : Json.isBody (decimal i) = true :=
  isBody_of_plain fun _ => isPlain_of_mem_decimal

theorem length_decimal_long (t : Int64) : (decimal t.toInt).length ≤ 20 := by
  have hlo := t.le_toInt
  have hhi := t.toInt_lt
  exact length_decimal_le (k := 19) (by decide) (by omega)

/-- What a line adds to the entry. -/
def stamp (comments : List UInt8) (uptime : Int) : List UInt8 :=
  comments ++ (text " " ++ decimal uptime)

variable {comments : List UInt8}

theorem isBody_stamp (h : Json.isBody comments = true) (uptime : Int) :
    Json.isBody (stamp comments uptime) = true :=
  isBody_append h (isBody_append (by decide) (isBody_decimal uptime))

theorem length_stamp (comments : List UInt8) (t : Int64) :
    (stamp comments t.toInt).length ≤ comments.length + 21 := by
  have hlong := length_decimal_long t
  have hspace : (text " ").length = 1 := by decide
  simp only [stamp, List.length_append]
  omega

/-! ## Steps -/

/-- Something was pushed into the buffer, or there is none. -/
def Logged (s : LogReport) : Prop := s.currentLogPos ≠ some subprefixText.length

def LineFits (s : LogReport) (input comments : List UInt8) (reportFormat : Int) (uptime : Int) :
    Prop :=
  ∀ line, performanceText input comments reportFormat uptime = some line → Room s line

/-- The condition on the id of a message that is sampled. -/
def IdCareful (s : LogReport) (id : List UInt8) (isCloud : Int) (uptime : Int) : Prop :=
  id.length ≤ msgIdLen ∧ Json.isBody id = true ∧
    (isCloud = 1 ∧ s.LineFits id (text "1_cloud") 0 uptime ∨
      isCloud = 0 ∧ s.LineFits id (text "1_alcs") 0 uptime)

/-- The condition under which a step does what it has to. A switch message that has its members
has an interval; where it is about property sets, no entry is begun, and there is something to
upload, or the allocation succeeds. A property set at the end of the samples finds something to
upload; one that is sampled is an object, and its id a text of at most 64 bytes that finds room.
A push goes on with an entry that is begun, and finds room. A forced upload finds entries, all
at their ends. -/
def Careful (strtod : Strtod) (s : LogReport) : LogStep → Prop
  | .switchMessage payload malloc _ =>
    ∀ count interval target, switchMembers strtod payload = some (count, interval, target) →
      toUnsigned interval ≠ 0 ∧
        (strncmpEq target (text "propSet") = true → s.gReportStatus ≠ .running ∧
          if toUnsigned count = 0 then s.Logged else malloc = true)
  | .propertySet payload isCloud uptime _ =>
    let found := payload.val.dropWhile (· ≠ 123)
    let num := (s.msgNum + 1) % 2 ^ 32
    s.switchStatus = true → interesting payload = true → found ≠ [] →
      s.gReportStatus ≠ .running →
        if s.sampleCount ≤ num then s.Logged
        else num % s.sampleInterval = 0 → ∃ id, parseMsgId strtod found = some id ∧
          (id ≠ [] → s.IdCareful id isCloud uptime.toInt)
  | .push input comments reportFormat uptime _ =>
    s.switchStatus = true → reportFormat ∈ [0, 1, 2] → reportFormat ≠ 0 ∧
      s.gReportStatus = .running ∧ comments.length ≤ 100 ∧ Json.isBody comments = true ∧
      s.LineFits input comments reportFormat uptime.toInt
  | .forceUpload _ => s.gLogPoll ≠ none ∧ s.Logged ∧ s.gReportStatus ≠ .running

theorem Sound.congr {s' : LogReport} (h : Sound s) (hinterval : s'.sampleInterval ≠ 0)
    (harray : s'.msgArray.length = msgIdLen) (hsize : s'.logSize = s.logSize)
    (htrace : s'.trace = s.trace) : Sound s' :=
  ⟨hinterval, harray, hsize ▸ h.size_ne, hsize ▸ h.size_le, htrace ▸ h.events⟩

theorem Holds.congr {s' : LogReport} (h : Holds s entries part) (hsound : Sound s')
    (hpoll : s'.gLogPoll = s.gLogPoll) (hpos : s'.currentLogPos = s.currentLogPos)
    (hsize : s'.logSize = s.logSize) (htrace : s'.trace = s.trace) : Holds s' entries part where
  toSound := hsound
  poll := hpoll.trans h.poll
  pos := hpos.trans h.pos
  pushed := htrace ▸ h.pushed
  bodies := h.bodies
  part_body := h.part_body
  le := h.le
  size := hsize ▸ htrace ▸ h.size

theorem Holds.entries_ne_nil (h : Holds s entries none) (hl : s.Logged) : entries ≠ [] := by
  rintro rfl
  refine hl ?_
  rw [h.pos, content, entriesText, opened]
  simp

theorem inv_switchedOff (h : Sound s) (hpos : s.gLogPoll = none → s.currentLogPos = none)
    (hdone : s.gReportStatus ≠ .done) (hr : s.gReportStatus ≠ .running) :
    Inv { s with switchStatus := false }.removeLogPoll := by
  have hsound : ∀ poll pos, Sound { s with
      switchStatus := false, gLogPoll := poll, currentLogPos := pos } :=
    fun _ _ => h.congr h.interval h.msgArray rfl rfl
  unfold removeLogPoll
  split
  next hpoll => exact ⟨hdone, .inr ⟨rfl, ⟨hsound _ _, hpoll, hpos hpoll⟩, hr⟩⟩
  next => exact ⟨hdone, .inr ⟨rfl, ⟨hsound _ _, rfl, rfl⟩, hr⟩⟩

theorem inv_stopSample (h : Inv s) (hr : s.gReportStatus ≠ .running) (hl : s.Logged) :
    ∃ s', s.stopSample assembled = some s' ∧ Inv s' := by
  obtain ⟨hdone, ⟨hon, entries, part, hholds, hpart⟩ | ⟨hoff, hh, -⟩⟩ := h
  · cases part with
    | some p => exact absurd (hpart.mpr rfl) hr
    | none =>
      obtain ⟨s', hupload, hholds', -, hstatus⟩ :=
        hholds.upload assembled (hholds.entries_ne_nil hl)
      have hpos : s.currentLogPos.getD 0 > 0 := by
        rw [hholds.pos]
        have := length_subprefixText
        simp only [Option.getD_some, List.length_append]
        omega
      rw [stopSample, if_pos hpos, dmMgrUpstreamThingLogPost, if_pos rfl, hupload, Option.map_some]
      refine ⟨_, rfl, inv_switchedOff hholds'.toSound ?_ (hstatus ▸ hdone) (hstatus ▸ hr)⟩
      rw [hholds'.poll]
      rintro ⟨⟩
  · have hpos : ¬ s.currentLogPos.getD 0 > 0 := by
      rw [hh.pos]
      exact Nat.lt_irrefl 0
    rw [stopSample, if_neg hpos, Option.map_some]
    exact ⟨_, rfl, inv_switchedOff hh.toSound (fun _ => hh.pos) hdone hr⟩

theorem Inv.congr {s' : LogReport} (h : Inv s) (hinterval : s'.sampleInterval ≠ 0)
    (harray : s'.msgArray.length = msgIdLen) (hsize : s'.logSize = s.logSize)
    (htrace : s'.trace = s.trace) (hpoll : s'.gLogPoll = s.gLogPoll)
    (hpos : s'.currentLogPos = s.currentLogPos) (hswitch : s'.switchStatus = s.switchStatus)
    (hstatus : s'.gReportStatus = s.gReportStatus) : Inv s' := by
  obtain ⟨hdone, ⟨hon, entries, part, hholds, hpart⟩ | ⟨hoff, hh, hr⟩⟩ := h
  · have hsound := hholds.toSound.congr hinterval harray hsize htrace
    exact ⟨hstatus ▸ hdone, .inl ⟨hswitch.trans hon, entries, part,
      hholds.congr hsound hpoll hpos hsize htrace, hstatus ▸ hpart⟩⟩
  · have hsound := hh.toSound.congr hinterval harray hsize htrace
    exact ⟨hstatus ▸ hdone, .inr ⟨hswitch.trans hoff,
      ⟨hsound, hpoll.trans hh.poll, hpos.trans hh.pos⟩,
      hstatus ▸ hr⟩⟩

theorem Inv.sound (h : Inv s) : Sound s := by
  obtain ⟨-, ⟨-, entries, part, hholds, -⟩ | ⟨-, hh, -⟩⟩ := h
  · exact hholds.toSound
  · exact hh.toSound

variable {strtod : Strtod}

theorem inv_switchMessage {payload : List UInt8} {malloc : Bool} (h : Inv s)
    (hc : Careful strtod s (.switchMessage payload malloc assembled)) :
    ∃ s', parseSwitchInfo strtod s payload malloc assembled = some s' ∧ Inv s' := by
  unfold parseSwitchInfo
  split
  next => exact ⟨s, rfl, h⟩
  next count interval target hmembers =>
    obtain ⟨hinterval, hprop⟩ := hc count interval target hmembers
    have hset : ∀ num, Inv { s with
        sampleCount := toUnsigned count, sampleInterval := toUnsigned interval, msgNum := num } :=
      fun num => h.congr hinterval h.sound.msgArray rfl rfl rfl rfl rfl rfl
    dsimp only
    split
    next => exact ⟨_, rfl, hset s.msgNum⟩
    next htarget =>
      obtain ⟨hr, hcount⟩ := hprop (by simpa using htarget)
      by_cases hzero : toUnsigned count = 0
      · rw [if_pos hzero] at hcount
        simp only [if_pos hzero]
        exact inv_stopSample (hset 0) hr hcount
      · rw [if_neg hzero] at hcount
        simp only [if_neg hzero, hcount]
        rw [createLogPoll_malloc]
        have hsound : Sound { s with
            sampleCount := toUnsigned count, sampleInterval := toUnsigned interval, msgNum := 0,
            switchStatus := true } := h.sound.congr hinterval h.sound.msgArray rfl rfl
        exact ⟨_, rfl, h.1, .inl ⟨rfl, [], none, hsound.holds_started, iff_of_false hr (by simp)⟩⟩

variable {uptime : Int64}

theorem inv_sendPermanceInfo {input line : List UInt8} {reportFormat : Int}
    (entries' : List (List UInt8)) (part' : Option (List UInt8)) (h : Holds s entries part)
    (hon : s.switchStatus = true)
    (hline : performanceText input comments reportFormat uptime.toInt = some line)
    (hfits : s.LineFits input comments reportFormat uptime.toInt) (hne : line ≠ [])
    (hlen : line.length < localPostLen)
    (htext : content entries' part' = content entries part ++ line)
    (hbodies : ∀ e ∈ entries', Json.isBody e = true) (hpart : ∀ p ∈ part', Json.isBody p = true)
    (hstatus : if reportFormat = 2 then part' = none
      else s.gReportStatus = .running ∧ part'.isSome = true) :
    ∃ s', s.sendPermanceInfo input comments reportFormat uptime.toInt assembled = some s' ∧
      Inv s' := by
  have hdata : snprintf localPostLen line = line := snprintf_eq_self hlen
  have hroom := hfits line hline
  rw [sendPermanceInfo, if_neg (by simp [hon]), hline]
  simp only [hdata, dmMgrUpstreamThingLogPost, Bool.false_eq_true, if_false]
  by_cases hend : reportFormat = 2
  · simp only [if_pos hend] at hstatus ⊢
    subst hstatus
    have hh : Holds { s with gReportStatus := .done } entries part :=
      h.congr (h.toSound.congr h.interval h.msgArray rfl rfl) rfl rfl rfl rfl
    obtain ⟨s', es, hpost, hh', hswitch, -⟩ := hh.logPost assembled hne hlen hroom
      htext hbodies hpart (fun _ => rfl)
    rw [hpost, Option.map_some]
    have hh'' : Holds { s' with gReportStatus := .ready } es none :=
      hh'.congr (hh'.toSound.congr hh'.interval hh'.msgArray rfl rfl) rfl rfl rfl rfl
    exact ⟨_, rfl, by simp, .inl ⟨hswitch.trans hon, es, none, hh'', by simp⟩⟩
  · simp only [if_neg hend] at hstatus ⊢
    have hrunning : s.gReportStatus ≠ .done := by rw [hstatus.1]; simp
    obtain ⟨s', es, hpost, hh', hswitch, hsame⟩ := h.logPost assembled hne hlen hroom
      htext hbodies hpart (fun hdone => absurd hdone hrunning)
    rw [hpost, Option.map_some]
    refine ⟨_, rfl, hsame ▸ hrunning, .inl ⟨hswitch.trans hon, es, part', hh', ?_⟩⟩
    exact iff_of_true (hsame.trans hstatus.1) hstatus.2

theorem bodies_concat {e : List UInt8} (hes : ∀ e ∈ entries, Json.isBody e = true)
    (he : Json.isBody e = true) : ∀ e' ∈ entries ++ [e], Json.isBody e' = true := by
  intro e' he'
  rcases List.mem_append.mp he' with h | h
  · exact hes e' h
  · rw [List.mem_singleton.mp h]
    exact he

theorem inv_push {input : List UInt8} {reportFormat : Int} (h : Inv s)
    (hc : Careful strtod s (.push input comments reportFormat uptime assembled)) :
    ∃ s', s.sendPermanceInfo input comments reportFormat uptime.toInt assembled = some s' ∧
      Inv s' := by
  by_cases hon : s.switchStatus = true
  · by_cases hformat : reportFormat ∈ ([0, 1, 2] : List Int)
    · obtain ⟨hne0, hrunning, hshort, hcomments, hfits⟩ := hc hon hformat
      obtain ⟨-, ⟨-, entries, part, hholds, hpart⟩ | ⟨-, -, hr⟩⟩ := h
      · obtain ⟨p, rfl⟩ := Option.isSome_iff_exists.mp (hpart.mp hrunning)
        have hp := hholds.part_body p rfl
        have hstamp := isBody_stamp hcomments uptime.toInt
        have hlen := length_stamp comments uptime
        have hspace : text " " = [32] := by decide
        have hlocal : localPostLen = 150 := rfl
        simp only [List.mem_cons, List.not_mem_nil, or_false, hne0, false_or] at hformat
        rcases hformat with rfl | rfl
        · have hline : performanceText input comments 1 uptime.toInt =
              some (stamp comments uptime.toInt ++ text " ") := by
            simp [performanceText, stamp]
          refine inv_sendPermanceInfo entries (some
            (p ++ (stamp comments uptime.toInt ++ text " ")))
            hholds hon hline hfits ?_ ?_ ?_ hholds.bodies ?_ ?_
          · rw [hspace]
            simp
          · rw [hspace, List.length_append, List.length_singleton]
            omega
          · simp only [content, opened, List.append_assoc, List.cons_append]
          · rintro q ⟨⟩
            exact isBody_append hp (isBody_append hstamp (by decide))
          · exact ⟨hrunning, rfl⟩
        · have hend : text "\"," = [34, 44] := by decide
          have hline : performanceText input comments 2 uptime.toInt =
              some (stamp comments uptime.toInt ++ text "\",") := by
            simp [performanceText, stamp]
          refine inv_sendPermanceInfo (entries ++ [p ++ stamp comments uptime.toInt]) none
            hholds hon hline hfits ?_ ?_ ?_ ?_ ?_ ?_
          · rw [hend]
            simp
          · rw [hend, List.length_append, List.length_cons, List.length_singleton]
            omega
          · rw [content, entriesText_append, hend]
            simp [content, opened, entriesText, quote]
          · exact bodies_concat hholds.bodies (isBody_append hp hstamp)
          · rintro q ⟨⟩
          · rw [if_pos rfl]
      · exact absurd hrunning hr
    · simp only [List.mem_cons, List.not_mem_nil, or_false, not_or] at hformat
      have hnone : performanceText input comments reportFormat uptime.toInt = none := by
        unfold performanceText
        split <;> simp_all
      refine ⟨s, ?_, h⟩
      rw [sendPermanceInfo, if_neg (by simp [hon]), hnone]
  · exact ⟨s, if_pos (by simpa using hon), h⟩

theorem inv_begin {id : List UInt8}
    (h : Holds s entries none) (hon : s.switchStatus = true) (hrunning : s.gReportStatus = .running)
    (hid : id ≠ []) (hlong : id.length ≤ msgIdLen) (hbody : Json.isBody id = true)
    (hcomments : Json.isBody comments = true) (hshort : comments.length ≤ 7)
    (hfits : s.LineFits id comments 0 uptime.toInt) :
    ∃ s', s.sendPermanceInfo id comments 0 uptime.toInt assembled = some s' ∧ Inv s' := by
  have hquote : text "\"" = [34] := by decide
  have hspace : text " " = [32] := by decide
  have hlen := length_stamp comments uptime
  have hlocal : localPostLen = 150 := rfl
  have hmsg : msgIdLen = 64 := rfl
  have hid0 : precision id = id := precision_eq_self (zero_not_mem_of_isBody hbody)
  have hline : performanceText id comments 0 uptime.toInt =
      some (34 :: (id ++ (text " " ++ (stamp comments uptime.toInt ++ text " ")))) := by
    simp [performanceText, stamp, hid, hid0, hquote]
  refine inv_sendPermanceInfo entries
    (some (id ++ (text " " ++ (stamp comments uptime.toInt ++ text " ")))) h hon hline hfits
    (List.cons_ne_nil _ _) ?_ ?_ h.bodies ?_ ⟨hrunning, rfl⟩
  · rw [hspace]
    simp only [List.length_cons, List.length_append, List.length_nil]
    omega
  · simp [content, opened]
  · rintro q ⟨⟩
    have hstamp := isBody_stamp hcomments uptime.toInt
    exact isBody_append hbody (isBody_append (by decide) (isBody_append hstamp (by decide)))

theorem setTargetMsg_cases {id : Option (List UInt8)} (hinterval : s.sampleInterval ≠ 0)
    (harray : s.msgArray.length = msgIdLen)
    (hid : s.msgNum % s.sampleInterval = 0 → ∃ i, id = some i ∧ i.length ≤ msgIdLen) :
    s.setTargetMsg id = some (false, s) ∨
      ∃ i array, id = some i ∧ i ≠ [] ∧ s.msgNum % s.sampleInterval = 0 ∧
        array.length = msgIdLen ∧ s.setTargetMsg id =
          some (true, { s with msgArray := array }) := by
  by_cases hon : s.switchStatus = false
  case pos => exact .inl (if_pos hon)
  simp only [setTargetMsg, if_neg hon, if_neg hinterval]
  by_cases hsample : s.msgNum % s.sampleInterval = 0 ∧ s.msgNum < s.sampleCount
  case neg => exact .inl (if_neg hsample)
  obtain ⟨i, rfl, hle⟩ := hid hsample.1
  simp only [if_pos hsample]
  by_cases hempty : i = []
  case pos => exact .inl (if_pos hempty)
  refine .inr ⟨i, strncpy i ++ s.msgArray.drop i.length, rfl, hempty, hsample.1, ?_, ?_⟩
  · rw [List.length_append, length_strncpy, List.length_drop]
    omega
  · simp only [if_neg hempty, if_pos hle]

theorem inv_propertySet {payload : CStr} {isCloud : Int}
    (h : Inv s) (hc : Careful strtod s (.propertySet payload isCloud uptime assembled)) :
    ∃ s', getMsgid strtod s payload isCloud uptime.toInt assembled = some s' ∧ Inv s' := by
  by_cases hon : s.switchStatus = true
  case neg => exact ⟨s, if_pos (by simpa using hon), h⟩
  by_cases hinterest : interesting payload = true
  case neg => exact ⟨s, by rw [getMsgid, if_neg (by simp [hon]),
    if_pos (by simpa using hinterest)], h⟩
  by_cases hfound : payload.val.dropWhile (· ≠ 123) = []
  case pos =>
    refine ⟨s, ?_, h⟩
    rw [getMsgid, if_neg (by simp [hon]), if_neg (by simp [hinterest])]
    exact if_pos hfound
  have hnum : Inv { s with msgNum := (s.msgNum + 1) % 2 ^ 32 } :=
    h.congr h.sound.interval h.sound.msgArray rfl rfl rfl rfl rfl rfl
  rw [getMsgid, if_neg (by simp [hon]), if_neg (by simp [hinterest])]
  simp only [if_neg hfound]
  by_cases hrunning : s.gReportStatus = .running
  case pos => exact ⟨_, if_pos hrunning, hnum⟩
  have hcond := hc hon hinterest hfound hrunning
  rw [if_neg hrunning]
  by_cases hcount : s.sampleCount ≤ (s.msgNum + 1) % 2 ^ 32
  case pos =>
    rw [if_pos hcount] at hcond ⊢
    exact inv_stopSample hnum hrunning hcond
  rw [if_neg hcount] at hcond ⊢
  have hid : (s.msgNum + 1) % 2 ^ 32 % s.sampleInterval = 0 → ∃ i,
      parseMsgId strtod (payload.val.dropWhile (· ≠ 123)) = some i ∧ i.length ≤ msgIdLen := by
    intro hsample
    obtain ⟨i, hi, hcareful⟩ := hcond hsample
    refine ⟨i, hi, ?_⟩
    by_cases hempty : i = []
    · rw [hempty]
      exact Nat.zero_le _
    · exact (hcareful hempty).1
  rcases setTargetMsg_cases hnum.sound.interval hnum.sound.msgArray hid with
    htarget | ⟨i, array, hi, hne, hsample, harray, htarget⟩
  · rw [htarget]
    exact ⟨_, rfl, hnum⟩
  · obtain ⟨i', hi', hcareful⟩ := hcond hsample
    obtain rfl : i' = i := Option.some.inj (hi'.symm.trans hi)
    obtain ⟨hlong, hbody, hcloud⟩ := hcareful hne
    obtain ⟨-, ⟨-, entries, part, hholds, hpart⟩ | ⟨hoff, -, -⟩⟩ := h
    case inr => simp [hon] at hoff
    cases part with
    | some p => exact absurd (hpart.mpr rfl) hrunning
    | none =>
      have hh : Holds { s with
          msgNum := (s.msgNum + 1) % 2 ^ 32, msgArray := array, gReportStatus := .running }
          entries none :=
        hholds.congr (hholds.toSound.congr hholds.interval harray rfl rfl) rfl rfl rfl rfl
      rw [htarget]
      simp only [Option.bind_some, Bool.true_eq_false, if_false, hi, Option.getD_some]
      rcases hcloud with ⟨rfl, hfits⟩ | ⟨rfl, hfits⟩
      · exact inv_begin hh hon rfl hne hlong hbody (by decide) (by decide) hfits
      · exact inv_begin hh hon rfl hne hlong hbody (by decide) (by decide) hfits

theorem inv_forceUpload (h : Inv s) (hc : Careful strtod s (.forceUpload assembled)) :
    ∃ s', s.upload assembled = some s' ∧ Inv s' := by
  obtain ⟨hpoll, hlogged, hrunning⟩ := hc
  obtain ⟨hdone, ⟨hon, entries, part, hholds, hpart⟩ | ⟨-, hoff, -⟩⟩ := h
  · cases part with
    | some p => exact absurd (hpart.mpr rfl) hrunning
    | none =>
      obtain ⟨s', hupload, hholds', hswitch, hstatus⟩ :=
        hholds.upload assembled (hholds.entries_ne_nil hlogged)
      exact ⟨s', hupload, hstatus ▸ hdone, .inl ⟨hswitch.trans hon, [], none, hholds',
        iff_of_false (hstatus ▸ hrunning) (by simp)⟩⟩
  · exact absurd hoff.poll hpoll

theorem Inv.next {op : LogStep} (h : Inv s) (hc : Careful strtod s op) :
    ∃ s', s.next strtod op = some s' ∧ Inv s' := by
  cases op with
  | switchMessage payload malloc assembled => exact inv_switchMessage h hc
  | propertySet payload isCloud uptime assembled => exact inv_propertySet h hc
  | push input comments reportFormat uptime assembled => exact inv_push h hc
  | forceUpload assembled => exact inv_forceUpload h hc

end Steps

/-! ## Runs -/

/-- The condition on the next step of a run that has not failed. -/
def CarefulStep (strtod : Strtod) (s : Option LogReport) (op : LogStep) : Prop :=
  ∀ s', s = some s' → Careful strtod s' op

/-- In a run of careful steps no step fails, and every text that is uploaded is a JSON object
with the entries pushed. Every test for room sees the size of the log just when none comes
before the first push into a cleared buffer. -/
theorem logKept_run {strtod : Strtod} {ops : List LogStep}
    (hc : Meets (step strtod) (CarefulStep strtod) (some init) ops) :
    ∃ s, run (step strtod) (some init) ops = some s ∧ UploadsKept s.trace ∧
      (TestsKept s.trace ↔ ¬ TestsFresh s.trace) := by
  have hstep : ∀ s op, CarefulStep strtod s op → (∃ s', s = some s' ∧ Inv s') →
      ∃ s', step strtod s op = some s' ∧ Inv s' := by
    rintro _ op hcareful ⟨s, rfl, hs⟩
    exact hs.next (hcareful s rfl)
  obtain ⟨s, hrun, hs⟩ := run_invariant_of_meets hstep hc ⟨init, rfl, inv_init⟩
  have hevents := hs.sound.events
  refine ⟨s, hrun, fun before t after => hevents before _ after, ?_⟩
  constructor
  · rintro hkept ⟨before, size, filled, after, htrace, hfresh⟩
    exact (hevents _ _ _ htrace).mp (hkept _ _ _ _ htrace) hfresh
  · intro hfresh before size filled after htrace
    exact (hevents _ _ _ htrace).mpr fun hp => hfresh ⟨before, size, filled, after, htrace, hp⟩

/-! ## Some runs -/

def switchMessage (members : String) (malloc : Bool) : LogStep :=
  .switchMessage (text members) malloc true

def switchOn : LogStep :=
  switchMessage "\x7b\"Count\":9,\"Interval\":1,\"ProfileTarget\":\"propSet\"\x7d" true

/-- A property set with id 7 from the cloud. -/
def setSeven : LogStep :=
  .propertySet ⟨text "\x7b\"id\":\"7\",\"method\":\"thing.service.property.set\"\x7d",
    by decide⟩ 1 5 true

def lastLine : LogStep := .push [] (text "5") 2 8 true

def sampledRun : List LogStep := [switchOn, setSeven, lastLine, .forceUpload true]

theorem of_map_eq_some {α β : Type} {o : Option α} {f : α → β} {a : α} {b : β}
    (h : o.map f = some b) (ha : o = some a) : f a = b := by
  rw [ha] at h
  exact Option.some.inj h

theorem switchOn_careful : CarefulStep integerStrtod (some init) switchOn := by
  rintro s ⟨⟩ count interval target hmembers
  have hread : switchMembers integerStrtod
      (text "\x7b\"Count\":9,\"Interval\":1,\"ProfileTarget\":\"propSet\"\x7d") =
      some (9, 1, text "propSet") := by decide
  cases hread.symm.trans hmembers
  exact ⟨by decide, fun _ => ⟨by decide, rfl⟩⟩

theorem setSeven_careful :
    CarefulStep integerStrtod (run (step integerStrtod) (some init) [switchOn]) setSeven := by
  intro s hs _ _ _ _
  have hfields : (run (step integerStrtod) (some init) [switchOn]).map
      (fun s => (s.sampleCount, s.msgNum, s.logSize)) = some (9, 0, 0) := by decide +kernel
  have hs' := of_map_eq_some hfields hs
  simp only [Prod.mk.injEq] at hs'
  obtain ⟨hcount, hnum, hsize⟩ := hs'
  rw [hcount, hnum, if_neg (by decide)]
  refine fun _ => ⟨[55], by decide, fun _ => ⟨by decide, by decide, .inl ⟨rfl, ?_⟩⟩⟩
  rintro line ⟨⟩
  rw [Room, hsize]
  decide

theorem lastLine_careful :
    CarefulStep integerStrtod (run (step integerStrtod) (some init) [switchOn, setSeven])
      lastLine := by
  intro s hs _ _
  have hfields : (run (step integerStrtod) (some init) [switchOn, setSeven]).map
      (fun s => (s.gReportStatus, s.logSize)) = some (.running, 64) := by decide +kernel
  have hs' := of_map_eq_some hfields hs
  simp only [Prod.mk.injEq] at hs'
  refine ⟨by decide, hs'.1, by decide, by decide, ?_⟩
  rintro line ⟨⟩
  rw [Room, hs'.2]
  decide

theorem forceUpload_careful :
    CarefulStep integerStrtod (run (step integerStrtod) (some init) [switchOn, setSeven, lastLine])
      (.forceUpload true) := by
  intro s hs
  have hfields : (run (step integerStrtod) (some init) [switchOn, setSeven, lastLine]).map
      (fun s => (s.gLogPoll.isSome, s.currentLogPos, s.gReportStatus)) =
      some (true, some 69, .ready) := by decide +kernel
  have hs' := of_map_eq_some hfields hs
  simp only [Prod.mk.injEq] at hs'
  obtain ⟨hpoll, hpos, hstatus⟩ := hs'
  refine ⟨Option.isSome_iff_ne_none.mp hpoll, ?_, by rw [hstatus]; decide⟩
  rw [Logged, hpos, length_subprefixText]
  decide

/-- One message is sampled and uploaded. -/
theorem logKept_run_sampled :
    Meets (step integerStrtod) (CarefulStep integerStrtod) (some init) sampledRun ∧
    ∃ s, run (step integerStrtod) (some init) sampledRun = some s ∧ UploadsKept s.trace ∧
      (TestsKept s.trace ↔ ¬ TestsFresh s.trace) := by
  have hcareful :
      Meets (step integerStrtod) (CarefulStep integerStrtod) (some init) sampledRun := by
    have hon : Meets (step integerStrtod) (CarefulStep integerStrtod) (some init) [switchOn] :=
      ⟨switchOn_careful, trivial⟩
    have hbegun := meets_concat hon setSeven_careful
    have hended := meets_concat hbegun lastLine_careful
    exact meets_concat hended forceUpload_careful
  exact ⟨hcareful, logKept_run hcareful⟩

/-- A property set whose id has 65 bytes. -/
def setLong : LogStep :=
  .propertySet ⟨text "\x7b\"id\":\"" ++ (List.replicate 65 97 ++
    text "\",\"method\":\"thing.service.property.set\"\x7d"), by decide⟩ 1 5 true

def switchOff : LogStep :=
  switchMessage "\x7b\"Count\":0,\"Interval\":1,\"ProfileTarget\":\"propSet\"\x7d" true

theorem entriesText_ne_nil {es : List (List UInt8)} (h : es ≠ []) : entriesText es ≠ [] := by
  rw [entriesText_eq h]
  simp

/-- An interval of zero, a failed allocation and a long id are fatal to the next message that
is sampled; the first push into a cleared buffer finds another size than that of the log, and
a switch off before any push uploads a text without entries that is no array. -/
theorem log_goes_wrong :
    run (step integerStrtod) (some init) [switchOn,
      switchMessage "\x7b\"Count\":9,\"Interval\":0,\"ProfileTarget\":\"propSet\"\x7d" true,
      setSeven] = none ∧
    run (step integerStrtod) (some init) [
      switchMessage "\x7b\"Count\":9,\"Interval\":1,\"ProfileTarget\":\"propSet\"\x7d" false,
      setSeven, lastLine] = none ∧
    run (step integerStrtod) (some init) [switchOn, setLong] = none ∧
    (∃ s, run (step integerStrtod) (some init) [switchOn, setSeven] = some s ∧
      ¬ TestsKept s.trace) ∧
    ∃ s, run (step integerStrtod) (some init) [switchOn, switchOff] = some s ∧
      ¬ UploadsKept s.trace := by
  refine ⟨by decide +kernel, by decide +kernel, by decide +kernel, ?_, ?_⟩
  · have htrace : (run (step integerStrtod) (some init) [switchOn, setSeven]).map (·.trace) =
        some [.started, .tested 0 51, .pushed (text "\"7 1_cloud 5 ")] := by decide +kernel
    obtain ⟨s, hs, hst⟩ := Option.map_eq_some_iff.mp htrace
    refine ⟨s, hs, fun hkept => ?_⟩
    exact absurd (hkept [.started] 0 51 _ hst) (by decide)
  · have htrace : (run (step integerStrtod) (some init) [switchOn, switchOff]).map (·.trace) =
        some [.started, .uploaded (text
          "\x7b\"template\": \"traceContext logContent\",\"contents\":]\x7d"), .started] := by
      decide +kernel
    obtain ⟨s, hs, hst⟩ := Option.map_eq_some_iff.mp htrace
    refine ⟨s, hs, fun hkept => ?_⟩
    obtain ⟨⟨entries, hentries, htext⟩, -⟩ := hkept [.started] _ _ hst
    by_cases hnil : entries = []
    · subst hnil
      exact absurd htext (by decide)
    · exact entriesText_ne_nil hnil hentries.symm

end AliyunIot.Dm.LogReport
