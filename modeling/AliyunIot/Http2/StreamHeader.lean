import Mathlib.Data.List.Infix
import AliyunIot.Http2.Stream

/-!
# The headers of an answer

`answered_iff`: a stream is told that it is answered once, and only when its channel id and
its status are there, just when the first two headers that are counted are these two, or it
is told of a refusal alone.
-/

namespace AliyunIot.Http2

open Format

inductive HeaderKind where
  | channel | answer | refusal | other
  deriving DecidableEq

namespace HeaderCallback

def kind (c : HeaderCallback) : HeaderKind :=
  if c.cat ≠ 1 then .other
  else if strncmpEq c.name xDataStreamId then .channel
  else if strncmpEq c.name xFileUploadId then .other
  else if strncmpEq c.name xNextAppendPosition then .other
  else if strncmpEq c.name xResponseStatus then .answer
  else if strncmpEq c.name pseudoStatus then if isOk c.value then .other else .refusal
  else .other

def isChannel (c : HeaderCallback) : Bool := c.kind = .channel

def isRefusal (c : HeaderCallback) : Bool := c.kind = .refusal

def isHit (c : HeaderCallback) : Bool := (c.kind = .channel && c.malloc) || c.kind = .answer

def isStatus (c : HeaderCallback) : Bool := c.kind = .answer || c.kind = .refusal

/-- The channel id, under its own name, is stored. -/
def HoldsChannel (c : HeaderCallback) : Prop :=
  c.cat = 1 ∧ precision c.name = xDataStreamId ∧ c.malloc = true

/-- The status of the answer, under its own name. -/
def HoldsStatus (c : HeaderCallback) : Prop := c.cat = 1 ∧ precision c.name = xResponseStatus

/-- A status other than 200, under its own name. -/
def Refuses (c : HeaderCallback) : Prop :=
  c.cat = 1 ∧ precision c.name = pseudoStatus ∧ isOk c.value = false

end HeaderCallback

namespace Http2StreamNode

def received (id : UInt32) (streamType : StreamType) (cs : List HeaderCallback) :
    Http2StreamNode :=
  cs.foldl onStreamHeader { fresh id with streamType }

/-! ## What is asked -/

def Stored (node : Http2StreamNode) (cs : List HeaderCallback) : Prop :=
  (∃ c ∈ cs, c.HoldsChannel ∧ node.channelId = some (CharBuf.string c.value)) ∧
    ∃ c ∈ cs, c.HoldsStatus ∧ node.statusCode = statusOf c.value

/-- What a header has to keep after others. -/
structure StepKept (id : UInt32) (streamType : StreamType) (cs : List HeaderCallback)
    (c : HeaderCallback) : Prop where
  once : (received id streamType (cs ++ [c])).posts ≤ 1
  stored : (received id streamType cs).posts < (received id streamType (cs ++ [c])).posts →
    (∃ c' ∈ cs ++ [c], c'.Refuses) ∨ (received id streamType (cs ++ [c])).Stored (cs ++ [c])
  success : ∀ waited malloc copied,
    (received id streamType (cs ++ [c])).openAnswer waited malloc =
        some (State.success, copied) →
      ∃ channelId, (received id streamType (cs ++ [c])).channelId = some channelId ∧
        copied = some channelId ∧ isOk (received id streamType (cs ++ [c])).statusCode = true

def Kept (id : UInt32) (streamType : StreamType) (cs : List HeaderCallback) : Prop :=
  ∀ pre c post, cs = pre ++ c :: post → StepKept id streamType pre c

/-- The first two headers that are counted are the channel id and the status, and a channel
id that comes first is not lost before the status comes. -/
def Answered (cs : List HeaderCallback) : Prop :=
  ∃ pre a mid b post, cs = pre ++ a :: mid ++ b :: post ∧
    (∀ c ∈ pre ++ mid, c.isHit = false) ∧
    (a.HoldsChannel ∧ b.HoldsStatus ∧ (∀ c ∈ mid, c.isChannel = false) ∨
      a.HoldsStatus ∧ b.HoldsChannel)

/-- At most one header is counted and there is one refusal, or there is no refusal, and the
headers that are counted begin with the two and do not come round to 2 again. -/
def Completes (cs : List HeaderCallback) : Prop :=
  (∃ c, cs.filter (·.isRefusal) = [c] ∧ c.Refuses ∧ (cs.filter (·.isHit)).length < 2) ∨
    cs.filter (·.isRefusal) = [] ∧ (cs.filter (·.isHit)).length < 258 ∧
      (2 ≤ (cs.filter (·.isHit)).length → Answered cs)

/-! ## The headers by kind -/

section
variable {node : Http2StreamNode} {c : HeaderCallback}

theorem onStreamHeader_eq (node : Http2StreamNode) (c : HeaderCallback) :
    node.onStreamHeader c = match c.kind with
      | .channel =>
        if c.malloc = false then { node with channelId := none }
        else { node with channelId := some (CharBuf.string c.value) }.count
      | .answer => { node with statusCode := statusOf c.value }.count
      | .refusal => { node with statusCode := statusOf c.value, posts := node.posts + 1 }
      | .other => node := by
  unfold onStreamHeader HeaderCallback.kind
  repeat' split
  all_goals first | rfl | simp_all

theorem precision_isPrefix_of_strncmpEq {name lit : List UInt8}
    (h : strncmpEq name lit = true) : precision name <+: lit := by
  induction name generalizing lit with
  | nil => exact List.nil_prefix
  | cons x name ih =>
    cases lit with
    | nil =>
      have hx : x = 0 := by simpa [strncmpEq] using h
      simp [precision, hx]
    | cons y lit =>
      simp only [strncmpEq, Bool.and_eq_true, decide_eq_true_eq] at h
      obtain ⟨rfl, h⟩ := h
      by_cases hx : x = 0
      · simp [precision, hx]
      · have heq : precision (x :: name) = x :: precision name := by simp [precision, hx]
        rw [heq]
        exact List.cons_prefix_cons.mpr ⟨rfl, ih h⟩

theorem strncmpEq_of_precision {name lit : List UInt8} (h : precision name = lit) :
    strncmpEq name lit = true := by
  subst h
  induction name with
  | nil => rfl
  | cons x name ih =>
    by_cases hx : x = 0
    · simp [precision, strncmpEq, hx]
    · have heq : precision (x :: name) = x :: precision name := by simp [precision, hx]
      rw [heq, strncmpEq, ih]
      simp

theorem strncmpEq_false {name lit : List UInt8} (h : ¬ precision name <+: lit) :
    strncmpEq name lit = false := by
  cases hs : strncmpEq name lit with
  | false => rfl
  | true => exact absurd (precision_isPrefix_of_strncmpEq hs) h

theorem kind_of_holdsChannel (h : c.HoldsChannel) : c.kind = .channel := by
  rw [HeaderCallback.kind, if_neg (not_not.mpr h.1), if_pos (strncmpEq_of_precision h.2.1)]

theorem kind_of_holdsStatus (h : c.HoldsStatus) : c.kind = .answer := by
  have no (lit : List UInt8) (hlit : ¬ xResponseStatus <+: lit) :
      ¬ strncmpEq c.name lit = true := by
    rw [strncmpEq_false (h.2.symm ▸ hlit)]
    exact Bool.false_ne_true
  rw [HeaderCallback.kind, if_neg (not_not.mpr h.1), if_neg (no _ (by decide)),
    if_neg (no _ (by decide)), if_neg (no _ (by decide)), if_pos (strncmpEq_of_precision h.2)]

theorem kind_of_refuses (h : c.Refuses) : c.kind = .refusal := by
  have no (lit : List UInt8) (hlit : ¬ pseudoStatus <+: lit) :
      ¬ strncmpEq c.name lit = true := by
    rw [strncmpEq_false (h.2.1.symm ▸ hlit)]
    exact Bool.false_ne_true
  rw [HeaderCallback.kind, if_neg (not_not.mpr h.1), if_neg (no _ (by decide)),
    if_neg (no _ (by decide)), if_neg (no _ (by decide)), if_neg (no _ (by decide)),
    if_pos (strncmpEq_of_precision h.2.1), if_neg (by simp [h.2.2])]

end

/-! ## A node after the headers -/

section
variable (id : UInt32) (streamType : StreamType)

theorem received_concat (cs : List HeaderCallback) (c : HeaderCallback) :
    received id streamType (cs ++ [c]) = (received id streamType cs).onStreamHeader c := by
  rw [received, List.foldl_append]
  rfl

theorem count_spec (node : Http2StreamNode) {hits refusals : Nat}
    (hcount : node.rcvHdCnt.toNat = hits % 256)
    (hposts : node.posts = refusals + (hits + 254) / 256) :
    node.count.rcvHdCnt.toNat = (hits + 1) % 256 ∧
      node.count.posts = refusals + (hits + 1 + 254) / 256 := by
  have hnext : (node.rcvHdCnt + 1).toNat = (node.rcvHdCnt.toNat + 1) % 256 := by
    rw [UInt8.toNat_add]
    rfl
  have htwo : node.rcvHdCnt + 1 = 2 ↔ (node.rcvHdCnt.toNat + 1) % 256 = 2 := by
    rw [← UInt8.toNat_inj, hnext]
    rfl
  refine ⟨?_, ?_⟩
  · rw [count, hnext]
    omega
  · simp only [count, htwo]
    split <;> omega

theorem length_filter_concat {α : Type} (p : α → Bool) (xs : List α) (x : α) :
    ((xs ++ [x]).filter p).length = (xs.filter p).length + if p x then 1 else 0 := by
  rw [List.filter_append, List.length_append]
  cases h : p x <;> simp [h]

theorem received_counts (cs : List HeaderCallback) :
    (received id streamType cs).rcvHdCnt.toNat = (cs.filter (·.isHit)).length % 256 ∧
      (received id streamType cs).posts = (cs.filter (·.isRefusal)).length +
        ((cs.filter (·.isHit)).length + 254) / 256 := by
  induction cs using List.reverseRecOn with
  | nil => exact ⟨rfl, rfl⟩
  | append_singleton cs c ih =>
    obtain ⟨hcount, hposts⟩ := ih
    rw [received_concat, onStreamHeader_eq]
    generalize received id streamType cs = node at hcount hposts
    rw [length_filter_concat, length_filter_concat]
    generalize (cs.filter (·.isHit)).length = hits at hcount hposts
    generalize (cs.filter (·.isRefusal)).length = refusals at hposts
    cases hkind : c.kind with
    | channel =>
      cases hmalloc : c.malloc with
      | false =>
        simp [HeaderCallback.isHit, HeaderCallback.isRefusal, hkind, hmalloc, hcount, hposts]
      | true =>
        simpa [HeaderCallback.isHit, HeaderCallback.isRefusal, hkind, hmalloc] using
          count_spec { node with channelId := some (CharBuf.string c.value) } hcount hposts
    | answer =>
      simpa [HeaderCallback.isHit, HeaderCallback.isRefusal, hkind] using
        count_spec { node with statusCode := statusOf c.value } hcount hposts
    | refusal =>
      simp only [HeaderCallback.isHit, HeaderCallback.isRefusal, hkind]
      exact ⟨hcount, by simp; omega⟩
    | other => simp [HeaderCallback.isHit, HeaderCallback.isRefusal, hkind, hcount, hposts]

theorem received_channelId (cs : List HeaderCallback) :
    (received id streamType cs).channelId = (cs.filter (·.isChannel)).getLast?.bind
      fun c => if c.malloc then some (CharBuf.string c.value) else none := by
  induction cs using List.reverseRecOn with
  | nil => rfl
  | append_singleton cs c ih =>
    rw [received_concat, onStreamHeader_eq]
    cases hkind : c.kind with
    | channel =>
      cases hmalloc : c.malloc <;> simp [HeaderCallback.isChannel, hkind, hmalloc, count]
    | answer => simp [HeaderCallback.isChannel, hkind, count, ih]
    | refusal => simp [HeaderCallback.isChannel, hkind, ih]
    | other => simp [HeaderCallback.isChannel, hkind, ih]

theorem received_statusCode (cs : List HeaderCallback) :
    (received id streamType cs).statusCode =
      (cs.filter (·.isStatus)).getLast?.elim [] fun c => statusOf c.value := by
  induction cs using List.reverseRecOn with
  | nil => rfl
  | append_singleton cs c ih =>
    rw [received_concat, onStreamHeader_eq]
    cases hkind : c.kind with
    | channel =>
      cases hmalloc : c.malloc <;> simp [HeaderCallback.isStatus, hkind, count, ih]
    | answer => simp [HeaderCallback.isStatus, hkind, count]
    | refusal => simp [HeaderCallback.isStatus, hkind]
    | other => simp [HeaderCallback.isStatus, hkind, ih]

end

/-! ## The second header that is counted -/

section
variable {a b : HeaderCallback} {pre mid : List HeaderCallback}

theorem isHit_of_holdsChannel {c : HeaderCallback} (h : c.HoldsChannel) : c.isHit = true := by
  simp [HeaderCallback.isHit, kind_of_holdsChannel h, h.2.2]

theorem isHit_of_holdsStatus {c : HeaderCallback} (h : c.HoldsStatus) : c.isHit = true := by
  simp [HeaderCallback.isHit, kind_of_holdsStatus h]

theorem getLast?_filter_split {α : Type} {p : α → Bool} (xs : List α) {x : α} {ys : List α}
    (hx : p x = true) (hys : ∀ y ∈ ys, p y = false) :
    ((xs ++ x :: ys).filter p).getLast? = some x := by
  have hnil : ys.filter p = [] := List.filter_eq_nil_iff.mpr fun y hy => by simp [hys y hy]
  rw [List.filter_append, List.filter_cons_of_pos hx, hnil, List.getLast?_concat]

theorem eq_of_isHit (hno : ∀ c ∈ pre ++ mid, c.isHit = false) {c : HeaderCallback}
    (hc : c ∈ pre ++ a :: mid ++ [b]) (hhit : c.isHit = true) : c = a ∨ c = b := by
  have hnot : c ∉ pre ++ mid := fun hmem => by simp [hno c hmem] at hhit
  simp only [List.mem_append, List.mem_cons, List.not_mem_nil, or_false, not_or] at hc hnot
  tauto

theorem Stored.answered {id : UInt32} {streamType : StreamType}
    (hno : ∀ c ∈ pre ++ mid, c.isHit = false)
    (h : (received id streamType (pre ++ a :: mid ++ [b])).Stored (pre ++ a :: mid ++ [b])) :
    a.HoldsChannel ∧ b.HoldsStatus ∧ (∀ c ∈ mid, c.isChannel = false) ∨
      a.HoldsStatus ∧ b.HoldsChannel := by
  obtain ⟨⟨c, hc, hchannel, hid⟩, d, hd, hstatus, -⟩ := h
  have hne : c ≠ d := by
    rintro rfl
    have hkind := kind_of_holdsChannel hchannel
    rw [kind_of_holdsStatus hstatus] at hkind
    exact HeaderKind.noConfusion hkind
  rcases eq_of_isHit hno hc (isHit_of_holdsChannel hchannel) with rfl | rfl
  · rcases eq_of_isHit hno hd (isHit_of_holdsStatus hstatus) with rfl | rfl
    · exact absurd rfl hne
    refine .inl ⟨hchannel, hstatus, fun x hx => ?_⟩
    by_contra hch
    have hmem : x ∈ mid.filter (·.isChannel) := by
      simp only [List.mem_filter]
      exact ⟨hx, by simpa using hch⟩
    have hfilter : (pre ++ c :: mid ++ [d]).filter (·.isChannel) =
        pre.filter (·.isChannel) ++ c :: mid.filter (·.isChannel) := by
      simp [HeaderCallback.isChannel, kind_of_holdsChannel hchannel, kind_of_holdsStatus hstatus]
    rw [received_channelId, hfilter] at hid
    -- the last channel id got no memory, or it would be counted
    have hne := List.ne_nil_of_mem hmem
    obtain ⟨y, hy⟩ : ∃ y, (mid.filter (·.isChannel)).getLast? = some y :=
      ⟨_, List.getLast?_eq_some_getLast hne⟩
    have hlast : (pre.filter (·.isChannel) ++ c :: mid.filter (·.isChannel)).getLast? =
        some y := by
      simp [List.getLast?_append, List.getLast?_cons, hy]
    have hymem := List.mem_filter.mp (List.mem_of_getLast? hy)
    have hyhit := hno y (List.mem_append_right pre hymem.1)
    have hykind : y.kind = .channel := by simpa [HeaderCallback.isChannel] using hymem.2
    have hymalloc : y.malloc = false := by simpa [HeaderCallback.isHit, hykind] using hyhit
    simp [hlast, hymalloc] at hid
  · rcases eq_of_isHit hno hd (isHit_of_holdsStatus hstatus) with rfl | rfl
    · exact .inr ⟨hstatus, hchannel⟩
    · exact absurd rfl hne

theorem stored_of_answered (id : UInt32) (streamType : StreamType)
    (hno : ∀ c ∈ pre ++ mid, c.isHit = false) (hrefusal : ∀ c ∈ mid, c.isRefusal = false)
    (h : a.HoldsChannel ∧ b.HoldsStatus ∧ (∀ c ∈ mid, c.isChannel = false) ∨
      a.HoldsStatus ∧ b.HoldsChannel) :
    (received id streamType (pre ++ a :: mid ++ [b])).Stored (pre ++ a :: mid ++ [b]) := by
  have ha : a ∈ pre ++ a :: mid ++ [b] := by simp
  have hb : b ∈ pre ++ a :: mid ++ [b] := by simp
  rcases h with ⟨hchannel, hstatus, hmid⟩ | ⟨hstatus, hchannel⟩
  · refine ⟨⟨a, ha, hchannel, ?_⟩, b, hb, hstatus, ?_⟩
    · have hpost : ∀ c ∈ mid ++ [b], c.isChannel = false := by
        intro c hc
        rcases List.mem_append.mp hc with hc | hc
        · exact hmid c hc
        · simp [List.mem_singleton.mp hc, HeaderCallback.isChannel, kind_of_holdsStatus hstatus]
      have ha' : a.isChannel = true := by
        simp [HeaderCallback.isChannel, kind_of_holdsChannel hchannel]
      have hlast := getLast?_filter_split (p := (·.isChannel)) pre ha' hpost
      rw [received_channelId, List.append_assoc, List.cons_append, hlast]
      simp [hchannel.2.2]
    · rw [received_statusCode]
      simp [HeaderCallback.isStatus, kind_of_holdsStatus hstatus]
  · refine ⟨⟨b, hb, hchannel, ?_⟩, a, ha, hstatus, ?_⟩
    · rw [received_channelId]
      simp [HeaderCallback.isChannel, kind_of_holdsChannel hchannel, hchannel.2.2]
    · have hpost : ∀ c ∈ mid ++ [b], c.isStatus = false := by
        intro c hc
        rcases List.mem_append.mp hc with hc | hc
        · have hhit := hno c (List.mem_append_right pre hc)
          have hr := hrefusal c hc
          simp only [HeaderCallback.isHit, HeaderCallback.isRefusal, HeaderCallback.isStatus,
            Bool.or_eq_false_iff] at hhit hr ⊢
          exact ⟨hhit.2, hr⟩
        · simp [List.mem_singleton.mp hc, HeaderCallback.isStatus, kind_of_holdsChannel hchannel]
      have ha' : a.isStatus = true := by
        simp [HeaderCallback.isStatus, kind_of_holdsStatus hstatus]
      have hlast := getLast?_filter_split (p := (·.isStatus)) pre ha' hpost
      rw [received_statusCode, List.append_assoc, List.cons_append, hlast]
      rfl

end

/-! ## All the headers -/

section
variable {id : UInt32} {streamType : StreamType} {cs pre post : List HeaderCallback}

theorem split_unique {α : Type} {p : α → Bool} {xs ys xs' ys' : List α} {y y' : α}
    (heq : xs ++ y :: ys = xs' ++ y' :: ys') (hy : p y = true) (hy' : p y' = true)
    (hlen : (xs.filter p).length = (xs'.filter p).length) : xs = xs' ∧ y = y' := by
  induction xs generalizing xs' with
  | nil =>
    cases xs' with
    | nil => exact ⟨rfl, (List.cons.inj heq).1⟩
    | cons x' xs' =>
      obtain rfl : y = x' := (List.cons.inj heq).1
      simp [hy] at hlen
  | cons x xs ih =>
    cases xs' with
    | nil =>
      obtain rfl : x = y' := (List.cons.inj heq).1
      simp [hy'] at hlen
    | cons x' xs' =>
      obtain ⟨rfl, htail⟩ := List.cons.inj heq
      have hlen' : (xs.filter p).length = (xs'.filter p).length := by
        cases hx : p x <;> simpa [hx] using hlen
      obtain ⟨rfl, hy⟩ := ih htail hlen'
      exact ⟨rfl, hy⟩

theorem openAnswer_success {node : Http2StreamNode} {waited : Int} {malloc : Bool}
    {copied : Option CStr} (h : node.openAnswer waited malloc = some (State.success, copied)) :
    ∃ channelId, node.channelId = some channelId ∧ copied = some channelId ∧
      isOk node.statusCode = true := by
  unfold openAnswer at h
  split at h
  · simp at h
  next hok =>
  simp only [not_or, Bool.not_eq_false] at hok
  cases hid : node.channelId with
  | none => simp [hid] at h
  | some channelId =>
    rw [hid] at h
    dsimp only at h
    split at h
    · simp at h
    · exact ⟨channelId, rfl, by simpa using h.symm, hok.2⟩

theorem length_filter_le (p : HeaderCallback → Bool) (heq : cs = pre ++ post) :
    (pre.filter p).length ≤ (cs.filter p).length := by
  rw [heq, List.filter_append, List.length_append]
  exact Nat.le_add_right _ _

theorem Completes.kept (h : Completes cs) : Kept id streamType cs := by
  rintro pre c post hcs
  have hsplit : cs = (pre ++ [c]) ++ post := by rw [hcs, List.append_assoc]; rfl
  have hhits := length_filter_le (·.isHit) hsplit
  have hrefusals := length_filter_le (·.isRefusal) hsplit
  obtain ⟨-, hposts⟩ := received_counts id streamType pre
  obtain ⟨-, hposts'⟩ := received_counts id streamType (pre ++ [c])
  have hlen := length_filter_concat (fun c : HeaderCallback => c.isHit) pre c
  rcases h with ⟨r, hr, hrefuses, hfew⟩ | ⟨hr, hfew, hanswered⟩
  · rw [hr, List.length_singleton] at hrefusals
    refine ⟨by omega, fun hlt => .inl ⟨r, ?_, hrefuses⟩, fun _ _ _ => openAnswer_success⟩
    -- the only refusal has come
    have hne : (pre ++ [c]).filter (·.isRefusal) ≠ [] := fun hnil => by
      rw [hnil] at hposts'
      simp only [List.length_nil] at hposts'
      omega
    obtain ⟨r', hr'⟩ := List.exists_mem_of_ne_nil _ hne
    have hmem : r' ∈ cs.filter (·.isRefusal) := by
      rw [hsplit, List.filter_append]
      exact List.mem_append_left _ hr'
    rw [hr, List.mem_singleton] at hmem
    exact hmem ▸ (List.mem_filter.mp hr').1
  · rw [hr, List.length_nil] at hrefusals
    refine ⟨by omega, fun hlt => .inr ?_, fun _ _ _ => openAnswer_success⟩
    have hhit : c.isHit = true := by
      by_contra hno
      rw [if_neg hno] at hlen
      omega
    rw [if_pos hhit] at hlen
    have hone : (pre.filter (·.isHit)).length = 1 := by omega
    obtain ⟨pre', a, mid, b, post', hcs', hno, hab⟩ := hanswered (by omega)
    have ha : a.isHit = true := by
      rcases hab with hab | hab
      · exact isHit_of_holdsChannel hab.1
      · exact isHit_of_holdsStatus hab.1
    have hb : b.isHit = true := by
      rcases hab with hab | hab
      · exact isHit_of_holdsStatus hab.2.1
      · exact isHit_of_holdsChannel hab.2
    have hfilter : (pre' ++ a :: mid).filter (·.isHit) = [a] := by
      have hpre : pre'.filter (·.isHit) = [] :=
        List.filter_eq_nil_iff.mpr fun c hc => by simp [hno c (List.mem_append_left _ hc)]
      have hmid : mid.filter (·.isHit) = [] :=
        List.filter_eq_nil_iff.mpr fun c hc => by simp [hno c (List.mem_append_right _ hc)]
      rw [List.filter_append, List.filter_cons_of_pos ha, hpre, hmid, List.nil_append]
    obtain ⟨rfl, rfl⟩ := split_unique (hcs.symm.trans hcs') hhit hb
      (hone.trans (by rw [hfilter, List.length_singleton]))
    refine stored_of_answered id streamType hno (fun x hx => ?_) hab
    have hnot := List.filter_eq_nil_iff.mp hr x (by rw [hcs]; simp [hx])
    simpa using hnot

theorem isRefusal_of_refuses {c : HeaderCallback} (h : c.Refuses) : c.isRefusal = true := by
  simp [HeaderCallback.isRefusal, kind_of_refuses h]

theorem Stored.two_le {node : Http2StreamNode} (h : node.Stored cs) :
    2 ≤ (cs.filter (·.isHit)).length := by
  obtain ⟨⟨c, hc, hchannel, -⟩, d, hd, hstatus, -⟩ := h
  have hc' := List.mem_filter.mpr ⟨hc, isHit_of_holdsChannel hchannel⟩
  have hd' := List.mem_filter.mpr ⟨hd, isHit_of_holdsStatus hstatus⟩
  match hfilter : cs.filter (·.isHit) with
  | [] => exact absurd (hfilter ▸ hc') List.not_mem_nil
  | [x] =>
    rw [hfilter, List.mem_singleton] at hc' hd'
    have hkind := kind_of_holdsChannel hchannel
    rw [hc', ← hd', kind_of_holdsStatus hstatus] at hkind
    exact HeaderKind.noConfusion hkind
  | _ :: _ :: _ =>
    rw [hfilter]
    exact Nat.le_add_left _ _

theorem Kept.completes (h : Kept id streamType cs) : Completes cs := by
  rcases List.eq_nil_or_concat cs with rfl | ⟨init, last, rfl⟩
  · exact .inr ⟨rfl, by decide, fun hlen => absurd hlen (by decide)⟩
  rw [List.concat_eq_append] at h ⊢
  have honce := (h init last [] rfl).once
  generalize hcs : init ++ [last] = cs at h honce ⊢
  obtain ⟨-, hposts⟩ := received_counts id streamType cs
  match hrefusals : cs.filter (·.isRefusal) with
  | [] =>
    rw [hrefusals, List.length_nil] at hposts
    refine .inr ⟨hrefusals, by omega, fun htwo => ?_⟩
    match hhits : cs.filter (·.isHit) with
    | [] => simp [hhits] at htwo
    | [_] => simp [hhits] at htwo
    | a :: b :: hits =>
      obtain ⟨pre, rest, rfl, hpre, ha, hrest⟩ := List.filter_eq_cons_iff.mp hhits
      obtain ⟨mid, post, rfl, hmid, hb, -⟩ := List.filter_eq_cons_iff.mp hrest
      have hno : ∀ c ∈ pre ++ mid, c.isHit = false := by
        intro c hc
        rcases List.mem_append.mp hc with hc | hc
        · simpa using hpre c hc
        · simpa using hmid c hc
      refine ⟨pre, a, mid, b, post, by simp, hno, ?_⟩
      have hstep := h (pre ++ a :: mid) b post (by simp)
      refine (hstep.stored ?_).elim (fun hrefused => ?_) fun hstored => hstored.answered hno
      · have hpre : pre.filter (·.isHit) = [] := List.filter_eq_nil_iff.mpr hpre
        have hmid : mid.filter (·.isHit) = [] := List.filter_eq_nil_iff.mpr hmid
        have hone : ((pre ++ a :: mid).filter (·.isHit)).length = 1 := by
          simp [hpre, hmid, List.filter_cons_of_pos ha]
        have htwo := length_filter_concat (·.isHit) (pre ++ a :: mid) b
        rw [if_pos hb, hone] at htwo
        have hrefusal := length_filter_concat (·.isRefusal) (pre ++ a :: mid) b
        rw [(received_counts id streamType (pre ++ a :: mid)).2,
          (received_counts id streamType (pre ++ a :: mid ++ [b])).2, hone, htwo, hrefusal]
        omega
      · obtain ⟨c, hc, hrefuses⟩ := hrefused
        have hnot := List.filter_eq_nil_iff.mp hrefusals c
          (by simp only [List.mem_append, List.mem_cons] at hc ⊢; tauto)
        exact absurd (isRefusal_of_refuses hrefuses) hnot
  | [c] =>
    rw [hrefusals, List.length_singleton] at hposts
    have hfew : (cs.filter (·.isHit)).length < 2 := by omega
    refine .inl ⟨c, hrefusals, ?_, hfew⟩
    obtain ⟨pre, post, rfl, hpre, hc, -⟩ := List.filter_eq_cons_iff.mp hrefusals
    have hsplit : pre ++ c :: post = (pre ++ [c]) ++ post := by simp
    have hle := length_filter_le (·.isHit) hsplit
    refine ((h pre c post rfl).stored ?_).elim (fun hrefused => ?_) fun hstored => ?_
    · have hpre : pre.filter (·.isRefusal) = [] := List.filter_eq_nil_iff.mpr hpre
      have hlen := length_filter_concat (·.isHit) pre c
      have hone := length_filter_concat (·.isRefusal) pre c
      rw [if_pos hc, hpre, List.length_nil] at hone
      rw [(received_counts id streamType pre).2, (received_counts id streamType (pre ++ [c])).2,
        hone, hpre, List.length_nil]
      omega
    · obtain ⟨c', hc', hrefuses⟩ := hrefused
      rcases List.mem_append.mp hc' with hmem | hmem
      · exact absurd (isRefusal_of_refuses hrefuses) (hpre c' hmem)
      · exact List.mem_singleton.mp hmem ▸ hrefuses
    · have htwo := hstored.two_le
      omega
  | _ :: _ :: _ =>
    rw [hrefusals] at hposts
    simp only [List.length_cons] at hposts
    omega

end

theorem answered_iff (id : UInt32) (streamType : StreamType) (cs : List HeaderCallback) :
    Kept id streamType cs ↔ Completes cs :=
  ⟨Kept.completes, Completes.kept⟩

/-- Two answers with a status and no channel id: an open that waits reads a null pointer. -/
theorem status_twice_not_kept : let c : HeaderCallback := ⟨1, xResponseStatus, text "200", true⟩
    ¬ Kept 1 .auxiliary [c, c] ∧
      (received 1 .auxiliary [c, c]).openAnswer 0 true = none := by
  intro c
  refine ⟨fun h => ?_, by decide⟩
  refine ((h [c] c [] rfl).stored (by decide)).elim ?_ ?_
  · rintro ⟨c', hc', hrefuses⟩
    have heq : c' = c := by simpa using hc'
    rw [heq] at hrefuses
    exact absurd hrefuses.2.1 (by decide)
  · rintro ⟨⟨c', hc', hchannel, -⟩, -⟩
    have heq : c' = c := by simpa using hc'
    rw [heq] at hchannel
    exact absurd hchannel.2.1 (by decide)

end Http2StreamNode

/-- An open that succeeds has copied the channel id of a node whose status is 200. -/
theorem StreamHandle.open_success {s s' : StreamHandle} {io : StreamHandle.RequestIo}
    {channelMalloc : Bool} {copied : Option CStr}
    (h : s.iotHttp2StreamOpen io channelMalloc = (some (State.success, copied), s')) :
    ∃ node ∈ s'.streamList, ∃ channelId, node.channelId = some channelId ∧
      copied = some channelId ∧ isOk node.statusCode = true := by
  unfold iotHttp2StreamOpen at h
  split at h
  · simp at h
  generalize s.submit .auxiliary [] io = submitted at h
  match submitted with
  | (.inl _, s₁) => simp at h
  | (.inr (_, id), s₁) =>
    dsimp only at h
    cases hs : (s₁.deliver io.wait.headers).nodeSearch (.ofInt id) with
    | none => simp [hs] at h
    | some node =>
      cases hanswer : node.openAnswer io.wait.result channelMalloc with
      | none => simp [hs, hanswer] at h
      | some answer =>
        obtain ⟨rv, channelId⟩ := answer
        simp only [hs, hanswer, Prod.mk.injEq, Option.some.injEq] at h
        obtain ⟨⟨rfl, rfl⟩, rfl⟩ := h
        rw [if_neg (by decide)]
        exact ⟨node, List.mem_of_find?_eq_some hs, node.openAnswer_success hanswer⟩

end AliyunIot.Http2
