import AliyunIot.Infra.Md5
import AliyunIot.Ota.Handle

/-!
# The digest contexts of a firmware

The contexts of `ota_lib.c` are those of `infra_md5.c` and `infra_sha256.c`. A context that
is known by what it absorbed (`Digest`) is refined by them over any order of updates and
finalisations: also one that goes on after a finalisation writes what the other one does.
-/

namespace AliyunIot.Ota

open Infra Lib

/-- `otalib_MD5Update` or `otalib_MD5Finalize`, and the same of SHA-256. -/
inductive DigestCall where
  | update (buf : List UInt8)
  | finalize

/-- The texts that calls write, one after the other. -/
def digestCalls {γ : Type} (update : γ → List UInt8 → γ) (finish : γ → List UInt8 × γ) :
    γ → List DigestCall → List (List UInt8)
  | _, [] => []
  | ctx, .update buf :: calls => digestCalls update finish (update ctx buf) calls
  | ctx, .finalize :: calls =>
    let (out, ctx) := finish ctx
    hexStr out :: digestCalls update finish ctx calls

/-- The calls have lengths that a `uint32_t` holds. -/
def SizedCalls (calls : List DigestCall) : Prop :=
  ∀ buf, DigestCall.update buf ∈ calls → buf.length < 4294967296

/-- A relation that the calls keep, under which finalisations write the same, is kept along a
run. -/
theorem digestCalls_refine {γ : Type} {update : γ → List UInt8 → γ}
    {finish : γ → List UInt8 × γ} {hash : List UInt8 → List UInt8} {bits : Nat → List UInt8}
    {carries : γ → List UInt8 → Prop}
    (hupdate : ∀ {ctx msg buf}, carries ctx msg → buf.length < 4294967296 →
      carries (update ctx buf) (msg ++ buf))
    (hfinish : ∀ {ctx msg}, carries ctx msg →
      (finish ctx).1 = hash msg ∧ carries (finish ctx).2 (msg ++ digestPadding bits msg.length))
    {ctx : γ} {d : Digest} (h : carries ctx d.absorbed) {calls : List DigestCall}
    (hsized : SizedCalls calls) :
    digestCalls update finish ctx calls =
      digestCalls Digest.update (fun d => d.finish hash bits) d calls := by
  induction calls generalizing ctx d with
  | nil => rfl
  | cons call calls ih =>
    have hrest : SizedCalls calls := fun buf hbuf => hsized buf (List.mem_cons_of_mem call hbuf)
    cases call with
    | update buf => exact ih (hupdate h (hsized buf List.mem_cons_self)) hrest
    | finalize =>
      obtain ⟨hout, hcarries⟩ := hfinish h
      have hnext := @ih (finish ctx).2 (d.finish hash bits).2 hcarries hrest
      rw [digestCalls, digestCalls, Digest.finish]
      dsimp only
      rw [hout, hnext]
      rfl

/-- Whatever is updated and finalised in whatever order, the texts are those of the digests
of RFC 1321 and FIPS 180 over what was absorbed. -/
theorem digests_refined (md5 : Md5Context) (sha256 : Sha256Context) (calls : List DigestCall)
    (hsized : SizedCalls calls) :
    digestCalls utilsMd5Update (fun ctx => ((utilsMd5Finish ctx).2, (utilsMd5Finish ctx).1))
        (utilsMd5Starts (utilsMd5Init md5)) calls =
      digestCalls Digest.update (fun d => d.finish Rfc1321.md5 bitsLe) ⟨[], false⟩ calls ∧
    digestCalls utilsSha256Update
        (fun ctx => ((utilsSha256Finish ctx []).2, (utilsSha256Finish ctx []).1))
        (utilsSha256Starts (utilsSha256Init sha256)) calls =
      digestCalls Digest.update
        (fun d => d.finish Fips180.sha256 fun n => (bitsLe n).reverse) ⟨[], false⟩ calls := by
  refine ⟨?_, ?_⟩
  · refine @digestCalls_refine Md5Context utilsMd5Update _ _ _
      (fun ctx msg => Carries utilsMd5Process md5State msg ctx)
      (fun h hlen => h.update hlen) (fun h => ⟨h.md5Finish, ?_⟩) _ ⟨[], false⟩
      (Carries.starts md5State _) _ hsized
    exact h.finish (fun _ _ _ => leBytes_two_words) (BlockHash.length_leBytes 8)
  · refine @digestCalls_refine Sha256Context utilsSha256Update _ _ _ Sha256Context.Carries
      (fun h hlen => h.update hlen) (fun h => ⟨(h.finish []).2, (h.finish []).1⟩) _ ⟨[], false⟩
      (Sha256Context.carries_starts _) _ hsized

theorem digests_refined_twice :
    digestCalls utilsMd5Update (fun ctx => ((utilsMd5Finish ctx).2, (utilsMd5Finish ctx).1))
        (utilsMd5Starts (utilsMd5Init md5Zero)) [.update [0x61], .finalize, .finalize] =
      digestCalls Digest.update (fun d => d.finish Rfc1321.md5 bitsLe) ⟨[], false⟩
        [.update [0x61], .finalize, .finalize] :=
  (digests_refined md5Zero sha256Zero [.update [0x61], .finalize, .finalize] (by
    intro buf hbuf
    simp only [List.mem_cons, DigestCall.update.injEq, reduceCtorEq, List.not_mem_nil, or_false,
      or_self] at hbuf
    rw [hbuf]
    decide)).1

end AliyunIot.Ota
