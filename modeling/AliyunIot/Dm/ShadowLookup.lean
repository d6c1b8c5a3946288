import AliyunIot.Dm.Tsl

/-!
# Events and services by name

The walks of `dm_shadow.c` over the events and the services of a shadow. They share one loop, and
differ in the counter that bounds it: `dm_shw_get_service` goes along the services as often as
there are events, so that it agrees with `dm_shw_get_service_by_identifier` only on some shadows
(`services_agree_iff`).
-/

namespace AliyunIot.Dm.Shadow

open State
open Tsl (DmShw Event Service Table)

/-! ## The walks -/

/-- How a walk ends: past the end of the list or at an identifier that is `NULL`, with an error,
or at an entry. -/
inductive Lookup where
  | outside
  | failed (res : Int)
  | found (index : Nat)
  deriving DecidableEq

/-- The loop over `todo` entries, of which the list has the identifiers. -/
def identifierLoop (key : List UInt8) : Nat → Nat → List (Option CStr) → Lookup
  | 0, _, _ => .failed failReturn
  | _ + 1, _, [] => .outside
  | _ + 1, _, none :: _ => .outside
  | todo + 1, index, some identifier :: rest =>
    if identifier.val = key then .found index else identifierLoop key todo (index + 1) rest

/-- The identifiers of the events; the storage past the counter does not belong to them. -/
def events (shadow : DmShw) : List (Option CStr) :=
  (shadow.events.entries.take shadow.events.number).map Event.identifier

def services (shadow : DmShw) : List (Option CStr) :=
  (shadow.services.entries.take shadow.services.number).map Service.identifier

/-- What the walks that take a length do; `bound` is the counter that they go by. -/
def searchBy (bound : Nat) (identifiers : List (Option CStr)) (key : List UInt8) : Lookup :=
  if key = [] then .failed userInputInvalid else identifierLoop key bound 0 identifiers

def eventSearch (shadow : DmShw) : List UInt8 → Lookup :=
  searchBy shadow.events.number (events shadow)

def serviceSearch (shadow : DmShw) : List UInt8 → Lookup :=
  searchBy shadow.services.number (services shadow)

/-- `dm_shw_get_service`; its loop goes by `event_number`. -/
def dmShwGetService (shadow : DmShw) : List UInt8 → Lookup :=
  searchBy shadow.events.number (services shadow)

def dmShwGetServiceByIdentifier (shadow : DmShw) (identifier : CStr) : Lookup :=
  identifierLoop identifier.val shadow.services.number 0 (services shadow)

/-! ## What the loop finds -/

def FirstAt (key : CStr) (identifiers : List (Option CStr)) (i : Nat) : Prop :=
  ∃ front rest, identifiers = front ++ some key :: rest ∧ front.length = i ∧ some key ∉ front

section Loop

variable {key : CStr} {identifiers : List (Option CStr)} {todo index i : Nat}

theorem FirstAt.mem (h : FirstAt key identifiers i) : some key ∈ identifiers := by
  obtain ⟨front, rest, rfl, -, -⟩ := h
  simp

theorem FirstAt.lt_length (h : FirstAt key identifiers i) : i < identifiers.length := by
  obtain ⟨front, rest, rfl, rfl, -⟩ := h
  simp

theorem FirstAt.cons {identifier : CStr} (hne : identifier ≠ key) :
    FirstAt key (some identifier :: identifiers) (i + 1) ↔ FirstAt key identifiers i := by
  constructor
  · rintro ⟨front, rest, heq, hlen, hfront⟩
    cases front with
    | nil => cases hlen
    | cons a front =>
      cases heq
      exact ⟨front, rest, rfl, Nat.succ.inj hlen, fun h => hfront (List.mem_cons_of_mem _ h)⟩
  · rintro ⟨front, rest, rfl, hlen, hfront⟩
    refine ⟨some identifier :: front, rest, rfl, congrArg (· + 1) hlen, ?_⟩
    rw [List.mem_cons, not_or]
    exact ⟨fun h => hne (Option.some.inj h).symm, hfront⟩

theorem identifierLoop_found {found : Nat} :
    identifierLoop key.val todo index identifiers = .found found ↔
      ∃ i, found = index + i ∧ FirstAt key identifiers i ∧ i < todo ∧
        none ∉ identifiers.take i := by
  induction todo generalizing index identifiers with
  | zero =>
    refine iff_of_false Lookup.noConfusion ?_
    rintro ⟨_, -, -, h, -⟩
    exact absurd h (Nat.not_lt_zero _)
  | succ todo ih =>
    match identifiers with
    | [] =>
      refine iff_of_false Lookup.noConfusion ?_
      rintro ⟨_, -, h, -⟩
      exact absurd h.mem List.not_mem_nil
    | none :: rest =>
      refine iff_of_false Lookup.noConfusion ?_
      rintro ⟨i, -, ⟨front, rest', heq, rfl, hfront⟩, -, hnone⟩
      cases front with
      | nil => cases heq
      | cons a front =>
        cases heq
        exact hnone (by simp)
    | some identifier :: rest =>
      rw [identifierLoop]
      by_cases heq : identifier = key
      · subst heq
        rw [if_pos rfl, Lookup.found.injEq]
        constructor
        · rintro rfl
          exact ⟨0, rfl, ⟨[], rest, rfl, rfl, List.not_mem_nil⟩, Nat.succ_pos _, by simp⟩
        · rintro ⟨i, rfl, ⟨front, rest', heq, rfl, hfront⟩, -, -⟩
          cases front with
          | nil => rfl
          | cons a front =>
            cases heq
            exact absurd List.mem_cons_self hfront
      · rw [if_neg fun h => heq (Subtype.ext h), ih]
        constructor
        · rintro ⟨i, rfl, hfirst, hlt, hnone⟩
          refine ⟨i + 1, by omega, (FirstAt.cons heq).mpr hfirst, by omega, ?_⟩
          simpa using hnone
        · rintro ⟨i, rfl, hfirst, hlt, hnone⟩
          cases i with
          | zero =>
            obtain ⟨front, rest', hsplit, hlen, -⟩ := hfirst
            rw [List.eq_nil_of_length_eq_zero hlen] at hsplit
            cases hsplit
            exact absurd rfl heq
          | succ i =>
            refine ⟨i, by omega, (FirstAt.cons heq).mp hfirst, by omega, ?_⟩
            simpa using hnone

theorem identifierLoop_failed (index : Nat) :
    (∃ res, identifierLoop key.val todo index identifiers = .failed res) ↔
      todo ≤ identifiers.length ∧ none ∉ identifiers.take todo ∧
        some key ∉ identifiers.take todo := by
  induction todo generalizing index identifiers with
  | zero => simp [identifierLoop]
  | succ todo ih =>
    match identifiers with
    | [] => simp [identifierLoop]
    | none :: rest => simp [identifierLoop]
    | some identifier :: rest =>
      rw [identifierLoop]
      by_cases heq : identifier = key
      · subst heq
        rw [if_pos rfl]
        exact iff_of_false (fun ⟨_, h⟩ => Lookup.noConfusion h) fun h => h.2.2 (by simp)
      · rw [if_neg fun h => heq (Subtype.ext h), ih]
        simp [Ne.symm heq]

theorem identifierLoop_lt {name : List UInt8} {found : Nat}
    (h : identifierLoop name todo index identifiers = .found found) :
    found < index + identifiers.length := by
  induction todo generalizing index identifiers with
  | zero => cases h
  | succ todo ih =>
    match identifiers with
    | [] => cases h
    | none :: rest => cases h
    | some identifier :: rest =>
      rw [identifierLoop] at h
      rw [List.length_cons]
      split at h
      · cases h
        omega
      · have := ih h
        omega

theorem identifierLoop_res {res : Int}
    (h : identifierLoop key.val todo index identifiers = .failed res) : res = failReturn := by
  induction todo generalizing index identifiers with
  | zero =>
    cases h
    rfl
  | succ todo ih =>
    match identifiers with
    | [] => cases h
    | none :: rest => cases h
    | some identifier :: rest =>
      rw [identifierLoop] at h
      split at h
      · cases h
      · exact ih h

end Loop

/-! ## Two walks to a service -/

/-- Both walks find the service with the identifier if there is one, and fail otherwise. -/
structure ServicesAgree (shadow : DmShw) (key : CStr) : Prop where
  existing : ∀ i, FirstAt key (services shadow) i →
    dmShwGetService shadow key.val = .found i ∧ dmShwGetServiceByIdentifier shadow key = .found i
  missing : some key ∉ services shadow →
    (∃ res, dmShwGetService shadow key.val = .failed res ∧ res ≠ success) ∧
      ∃ res, dmShwGetServiceByIdentifier shadow key = .failed res ∧ res ≠ success

section Agree

variable {shadow : DmShw} {key : CStr}

theorem length_services : (services shadow).length ≤ shadow.services.number := by
  rw [services, List.length_map]
  exact List.length_take_le ..

theorem byIdentifier_found {i : Nat} : dmShwGetServiceByIdentifier shadow key = .found i ↔
    FirstAt key (services shadow) i ∧ none ∉ (services shadow).take i := by
  rw [dmShwGetServiceByIdentifier, identifierLoop_found]
  constructor
  · rintro ⟨j, rfl, hfirst, -, hnone⟩
    rw [Nat.zero_add]
    exact ⟨hfirst, hnone⟩
  · rintro ⟨hfirst, hnone⟩
    have hlt := Nat.lt_of_lt_of_le hfirst.lt_length length_services
    exact ⟨i, (Nat.zero_add i).symm, hfirst, hlt, hnone⟩

theorem getService_found {i : Nat} : dmShwGetService shadow key.val = .found i ↔
    key.val ≠ [] ∧ FirstAt key (services shadow) i ∧ i < shadow.events.number ∧
      none ∉ (services shadow).take i := by
  rw [dmShwGetService, searchBy]
  split
  next hempty => exact iff_of_false Lookup.noConfusion fun h => h.1 hempty
  next hne =>
    rw [identifierLoop_found, and_iff_right hne]
    constructor
    · rintro ⟨j, rfl, h⟩
      rwa [Nat.zero_add]
    · exact fun h => ⟨i, (Nat.zero_add i).symm, h⟩

theorem failed_iff {bound : Nat} {identifiers : List (Option CStr)} :
    (∃ res, identifierLoop key.val bound 0 identifiers = .failed res ∧ res ≠ success) ↔
      bound ≤ identifiers.length ∧ none ∉ identifiers.take bound ∧
        some key ∉ identifiers.take bound := by
  rw [← identifierLoop_failed 0]
  constructor
  · rintro ⟨res, h, -⟩
    exact ⟨res, h⟩
  · rintro ⟨res, h⟩
    refine ⟨res, h, ?_⟩
    rw [identifierLoop_res h]
    decide

theorem byIdentifier_failed (hkey : some key ∉ services shadow) :
    (∃ res, dmShwGetServiceByIdentifier shadow key = .failed res ∧ res ≠ success) ↔
      shadow.services.number ≤ (services shadow).length ∧ none ∉ services shadow := by
  rw [dmShwGetServiceByIdentifier, failed_iff, List.take_of_length_le length_services,
    and_iff_left hkey]

theorem getService_failed (hkey : some key ∉ services shadow)
    (hwhole : shadow.services.number ≤ (services shadow).length) (hnamed : none ∉ services shadow) :
    (∃ res, dmShwGetService shadow key.val = .failed res ∧ res ≠ success) ↔
      key.val = [] ∨ shadow.events.number ≤ shadow.services.number := by
  have hlen : (services shadow).length = shadow.services.number :=
    Nat.le_antisymm length_services hwhole
  rw [dmShwGetService, searchBy]
  split
  next hempty => exact iff_of_true ⟨_, rfl, by decide⟩ (.inl hempty)
  next hne =>
    rw [failed_iff, hlen, or_iff_right hne]
    constructor
    · exact And.left
    · exact fun h => ⟨h, fun hmem => hnamed (List.mem_of_mem_take hmem),
        fun hmem => hkey (List.mem_of_mem_take hmem)⟩

/-- The walks agree if the service that is asked for stands in front of as many as there are
events, and if without it there are no more events than services. -/
theorem services_agree_iff (shadow : DmShw) (key : CStr) : ServicesAgree shadow key ↔
    (∀ i, FirstAt key (services shadow) i →
      key.val ≠ [] ∧ i < shadow.events.number ∧ none ∉ (services shadow).take i) ∧
    (some key ∉ services shadow →
      shadow.services.number ≤ (services shadow).length ∧ none ∉ services shadow ∧
        (key.val = [] ∨ shadow.events.number ≤ shadow.services.number)) := by
  constructor
  · intro h
    refine ⟨fun i hfirst => ?_, fun hkey => ?_⟩
    · obtain ⟨hne, -, hlt, hnone⟩ := getService_found.mp (h.existing i hfirst).1
      exact ⟨hne, hlt, hnone⟩
    · obtain ⟨hget, hby⟩ := h.missing hkey
      obtain ⟨hwhole, hnamed⟩ := (byIdentifier_failed hkey).mp hby
      exact ⟨hwhole, hnamed, (getService_failed hkey hwhole hnamed).mp hget⟩
  · rintro ⟨hexisting, hmissing⟩
    refine ⟨fun i hfirst => ?_, fun hkey => ?_⟩
    · obtain ⟨hne, hlt, hnone⟩ := hexisting i hfirst
      exact ⟨getService_found.mpr ⟨hne, hfirst, hlt, hnone⟩, byIdentifier_found.mpr ⟨hfirst, hnone⟩⟩
    · obtain ⟨hwhole, hnamed, hbound⟩ := hmissing hkey
      exact ⟨(getService_failed hkey hwhole hnamed).mpr hbound,
        (byIdentifier_failed hkey).mpr ⟨hwhole, hnamed⟩⟩

end Agree

def servicesShadow (names : List CStr) (eventNumber : Nat) : DmShw where
  properties := .empty
  events := ⟨eventNumber, some (List.replicate eventNumber ⟨some CStr.empty, .empty⟩)⟩
  services := ⟨names.length, some (names.map fun name => ⟨some name, .empty, .empty⟩)⟩

/-- With one event the second of two services is not found, and a walk along one service reads
past it if there are two events. -/
theorem services_disagree :
    dmShwGetService (servicesShadow [⟨[97], by decide⟩, ⟨[98], by decide⟩] 1) [98] =
        .failed failReturn ∧
      dmShwGetServiceByIdentifier (servicesShadow [⟨[97], by decide⟩, ⟨[98], by decide⟩] 1)
        ⟨[98], by decide⟩ = .found 1 ∧
      dmShwGetService (servicesShadow [⟨[97], by decide⟩] 2) [98] = .outside ∧
      ¬ ServicesAgree (servicesShadow [⟨[97], by decide⟩, ⟨[98], by decide⟩] 1)
        ⟨[98], by decide⟩ := by
  refine ⟨by decide, by decide, by decide, fun h => ?_⟩
  have hfound := (h.existing 1 ⟨[some ⟨[97], by decide⟩], [], rfl, rfl, by decide⟩).1
  exact absurd hfound (by decide)

end AliyunIot.Dm.Shadow
