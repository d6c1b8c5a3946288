import AliyunIot.Infra.HttpcSend
import AliyunIot.Lib.Search

/-!
# The host and the path of a URL

`_utils_parse_url` copies the host and the path to arrays of 256 bytes without looking at their
lengths, and it looks for the fragment from the host on, so that the path may get a negative
length (`url_iff`). What it finds stands in the request line in full.
-/

namespace AliyunIot.Httpc.Url

open Format Lib Httpc.Send

abbrev httpclientMaxUrlLen : Nat := 256

abbrev userInputHttpUrl : Int := State.userInputBase - 0x000D
abbrev userInputHttpPath : Int := State.userInputBase - 0x000E

/-- `strchr`: the place of a byte. -/
def strchr (s : List UInt8) (c : UInt8) : Option Nat := s.findIdx? (· = c)

/-- A `memcpy` of `len` bytes, and a terminator behind them; none behind the array. -/
def copyTerminated (buf : CharBuf) (src : List UInt8) (len : Nat) : Option CharBuf :=
  if len + 1 ≤ buf.length then some (buf.put 0 (src.take len ++ [0])) else none

/-- A difference of pointers or a length as an `uint32_t`. -/
def toUint32 (i : Int) : Nat := (i % 4294967296).toNat

/-- `path_len`: the fragment may stand in front of the slash. -/
def pathLen (hostPtr : List UInt8) (slash : Nat) : Nat :=
  match strchr hostPtr 35 with
  | some fragment => toUint32 (fragment - slash)
  | none => toUint32 (hostPtr.drop slash).length

/-- `_utils_parse_url`, none where it writes behind an array. -/
def utilsParseUrl (url : CStr) (host path : CharBuf) : Option (Int × CharBuf × CharBuf) :=
  match search (text "://") url.val with
  | none => some (userInputHttpUrl, host, path)
  | some pos =>
    let hostPtr := url.val.drop (pos + 3)
    match strchr hostPtr 47 with
    | none => some (userInputHttpPath, host, path)
    | some slash => do
      let host ← copyTerminated host hostPtr (toUint32 slash)
      let path ← copyTerminated path (hostPtr.drop slash) (pathLen hostPtr slash)
      some (State.success, host, path)

/-! ## The parts of a URL -/

/-- The host stands between the first `://` and the next slash, the path from there to the next
`#` or the end. -/
def Parts (url host path : List UInt8) : Prop :=
  ∃ scheme rest, url = scheme ++ (text "://" ++ (host ++ 47 :: rest)) ∧
    search (text "://") url = some scheme.length ∧ (47 : UInt8) ∉ host ∧
    path = (47 :: rest).takeWhile (· ≠ 35)

section Parse

variable {c : UInt8} {a b url host path src : List UInt8} {buf : CharBuf} {len : Nat}

theorem strchr_eq_none (h : c ∉ a) : strchr a c = none := by
  rw [strchr, List.findIdx?_eq_none_iff]
  intro x hx
  exact decide_eq_false fun hxc => h (hxc ▸ hx)

theorem strchr_append (h : c ∉ a) : strchr (a ++ c :: b) c = some a.length := by
  have hnone := strchr_eq_none h
  rw [strchr] at hnone
  rw [strchr, List.findIdx?_append, hnone, List.findIdx?_cons, decide_eq_true rfl]
  simp

theorem strchr_append_lt (h : c ∈ a) : ∃ k < a.length, strchr (a ++ b) c = some k := by
  cases hfind : a.findIdx? (· = c) with
  | none =>
    rw [List.findIdx?_eq_none_iff] at hfind
    exact absurd rfl (of_decide_eq_false (hfind c h))
  | some k =>
    have hlt := (List.findIdx?_eq_some_iff_getElem.mp hfind).1
    refine ⟨k, hlt, ?_⟩
    rw [strchr, List.findIdx?_append, hfind, Option.some_or]

theorem pathLen_eq {rest : List UInt8} (h : (35 : UInt8) ∉ host) :
    pathLen (host ++ 47 :: rest) host.length =
      toUint32 ((47 :: rest).takeWhile (· ≠ 35)).length := by
  have hwhile : ∀ s : List UInt8, (35 : UInt8) ∉ s → ∀ x ∈ s, decide (x ≠ 35) = true :=
    fun s hs x hx => decide_eq_true fun hx35 => hs (hx35 ▸ hx)
  by_cases hmem : (35 : UInt8) ∈ 47 :: rest
  · obtain ⟨front, back, hsplit, hfront⟩ := List.eq_append_cons_of_mem hmem
    have htake : (47 :: rest).takeWhile (· ≠ 35) = front := by
      rw [hsplit, List.takeWhile_append_of_pos (hwhile front hfront),
        List.takeWhile_cons_of_neg (by decide), List.append_nil]
    have hfind : strchr (host ++ 47 :: rest) 35 = some (host.length + front.length) := by
      rw [hsplit, ← List.append_assoc, strchr_append (by simp [h, hfront]), List.length_append]
    have hdiff : ((host.length + front.length : Nat) : Int) - host.length = front.length := by omega
    rw [pathLen, hfind, htake]
    simp only [hdiff]
  · have hnone : strchr (host ++ 47 :: rest) 35 = none :=
      strchr_eq_none fun hin => (List.mem_append.mp hin).elim h hmem
    rw [pathLen, hnone, List.takeWhile_eq_self_iff.mpr (hwhile _ hmem), List.drop_left]

theorem take_takeWhile (p : UInt8 → Bool) (s : List UInt8) :
    s.take (s.takeWhile p).length = s.takeWhile p :=
  List.prefix_iff_eq_take.mp (List.takeWhile_prefix p) |>.symm

theorem toUint32_of_lt {n : Nat} (h : n < 4294967296) : toUint32 n = n := by
  unfold toUint32
  omega

theorem text_copyTerminated (hsrc : (0 : UInt8) ∉ src) {out : CharBuf}
    (h : copyTerminated buf src len = some out) :
    out.text.map Subtype.val = some (src.take len) := by
  unfold copyTerminated at h
  split at h
  · cases h
    have hmem : (0 : UInt8) ∈ buf.put 0 (src.take len ++ [0]) :=
      List.mem_append_right _ (List.mem_append_left _ (by simp))
    rw [CharBuf.text, if_pos hmem, Option.map_some]
    have hput : buf.put 0 (src.take len ++ [0]) =
        src.take len ++ 0 :: buf.drop (0 + (src.take len ++ [0]).length) := by
      rw [CharBuf.put, List.take_zero, List.nil_append, List.append_assoc, List.singleton_append]
    rw [hput]
    exact congrArg some (precision_append_zero fun h0 => hsrc (List.mem_of_mem_take h0))
  · cases h

theorem strlen_lt_of_text {s : CStr} (h : buf.text = some s) : s.strlen < buf.length := by
  unfold CharBuf.text at h
  split at h
  next hmem =>
    cases h
    have hlt : (buf.takeWhile (· ≠ 0)).length < buf.length := by
      by_contra hle
      have heq := (List.takeWhile_prefix (p := (· ≠ 0)) (l := buf)).eq_of_length_le
        (Nat.not_lt.mp hle)
      rw [List.takeWhile_eq_self_iff] at heq
      exact of_decide_eq_true (heq 0 hmem) rfl
    exact hlt
  · cases h

theorem parts_unique {host' path' : List UInt8} (h : Parts url host path)
    (h' : Parts url host' path') : host = host' ∧ path = path' := by
  obtain ⟨scheme, rest, hurl, hsearch, hhost, hpath⟩ := h
  obtain ⟨scheme', rest', hurl', hsearch', hhost', hpath'⟩ := h'
  rw [hsearch, Option.some.injEq] at hsearch'
  rw [hurl] at hurl'
  obtain ⟨-, hbehind⟩ := List.append_inj hurl' hsearch'
  have hrest := List.append_cancel_left hbehind
  have hlen := congrArg (strchr · 47) hrest
  simp only [strchr_append hhost, strchr_append hhost', Option.some.injEq] at hlen
  obtain ⟨rfl, hcons⟩ := List.append_inj hrest hlen
  exact ⟨rfl, by rw [hpath, hpath', hcons]⟩

theorem le_pathLen (rest : List UInt8) (hlen : host.length < httpclientMaxUrlLen)
    (h : (35 : UInt8) ∈ host) : httpclientMaxUrlLen ≤ pathLen (host ++ 47 :: rest) host.length := by
  obtain ⟨k, hk, hfind⟩ := strchr_append_lt (b := 47 :: rest) h
  change host.length < 256 at hlen
  rw [pathLen, hfind]
  show 256 ≤ toUint32 (k - host.length)
  unfold toUint32
  omega

theorem parse_eq {url : CStr} {scheme rest : List UInt8}
    (hurl : url.val = scheme ++ (text "://" ++ (host ++ 47 :: rest)))
    (hsearch : search (text "://") url.val = some scheme.length) (hhost : (47 : UInt8) ∉ host)
    (hostBuf pathBuf : CharBuf) :
    utilsParseUrl url hostBuf pathBuf = (do
      let hostBuf ← copyTerminated hostBuf (host ++ 47 :: rest) (toUint32 host.length)
      let pathBuf ← copyTerminated pathBuf (47 :: rest) (pathLen (host ++ 47 :: rest) host.length)
      some (State.success, hostBuf, pathBuf)) := by
  have hptr : url.val.drop (scheme.length + 3) = host ++ 47 :: rest := by
    rw [hurl, ← List.drop_drop, List.drop_left]
    rfl
  simp only [utilsParseUrl, hsearch, hptr, strchr_append hhost, List.drop_left]

theorem parse_cases (url : CStr) (hostBuf pathBuf : CharBuf) :
    (∃ ret, ret ≠ State.success ∧
      utilsParseUrl url hostBuf pathBuf = some (ret, hostBuf, pathBuf)) ∨
      ∃ host path, Parts url.val host path := by
  cases hsearch : search (text "://") url.val with
  | none =>
    refine .inl ⟨userInputHttpUrl, by decide, ?_⟩
    simp only [utilsParseUrl, hsearch]
  | some pos =>
    obtain ⟨t, ht⟩ := prefix_of_search hsearch
    have hle : pos ≤ url.val.length := by
      have hlen := congrArg List.length ht
      rw [List.length_append, List.length_drop] at hlen
      have hsep : (text "://").length = 3 := rfl
      omega
    have hurl : url.val = url.val.take pos ++ (text "://" ++ t) := by
      rw [ht, List.take_append_drop]
    have hscheme : (url.val.take pos).length = pos := by
      rw [List.length_take]
      exact Nat.min_eq_left hle
    have hptr : url.val.drop (pos + 3) = t := by
      rw [← List.drop_drop, ← ht]
      rfl
    by_cases hslash : (47 : UInt8) ∈ t
    · obtain ⟨host, rest, hsplit, hhost⟩ := List.eq_append_cons_of_mem hslash
      rw [hsplit] at hurl
      exact .inr ⟨host, _, url.val.take pos, rest, hurl, by rw [hscheme]; exact hsearch, hhost, rfl⟩
    · refine .inl ⟨userInputHttpPath, by decide, ?_⟩
      simp only [utilsParseUrl, hsearch, hptr, strchr_eq_none hslash]

theorem length_copyTerminated {out : CharBuf} (h : copyTerminated buf src len = some out) :
    out.length = buf.length := by
  unfold copyTerminated at h
  split at h
  next hle =>
    cases h
    apply CharBuf.length_put
    rw [List.length_append, List.length_take, List.length_singleton]
    omega
  · cases h

theorem copyTerminated_zeros (src : List UInt8) (h : len < httpclientMaxUrlLen) :
    ∃ out, copyTerminated (CharBuf.zeros httpclientMaxUrlLen) src len = some out := by
  rw [copyTerminated, CharBuf.length_zeros, if_pos (Nat.succ_le_of_lt h)]
  exact ⟨_, rfl⟩

theorem parse_of_short {url : CStr} (h : Parts url.val host path)
    (hhost : host.length < httpclientMaxUrlLen) (hpath : path.length < httpclientMaxUrlLen)
    (hfragment : (35 : UInt8) ∉ host) :
    ∃ hostBuf pathBuf, utilsParseUrl url (CharBuf.zeros httpclientMaxUrlLen)
        (CharBuf.zeros httpclientMaxUrlLen) = some (State.success, hostBuf, pathBuf) ∧
      hostBuf.text.map Subtype.val = some host ∧ pathBuf.text.map Subtype.val = some path := by
  obtain ⟨scheme, rest, hurl, hsearch, hslash, hrest⟩ := h
  have hzero := url.property
  rw [hurl] at hzero
  have hhostZero : (0 : UInt8) ∉ host ++ 47 :: rest := fun h0 =>
    hzero (List.mem_append_right _ (List.mem_append_right _ h0))
  have hrestZero : (0 : UInt8) ∉ 47 :: rest := fun h0 => hhostZero (List.mem_append_right _ h0)
  have hhostLen : toUint32 host.length = host.length :=
    toUint32_of_lt (Nat.lt_trans hhost (by decide))
  have hpathLen : pathLen (host ++ 47 :: rest) host.length = path.length := by
    rw [pathLen_eq hfragment, ← hrest]
    exact toUint32_of_lt (Nat.lt_trans hpath (by decide))
  have hhostTake : (host ++ 47 :: rest).take host.length = host := List.take_left
  have hpathTake : (47 :: rest).take path.length = path := by
    rw [hrest]
    exact take_takeWhile _ _
  obtain ⟨hostBuf, hhostCopy⟩ :=
    copyTerminated_zeros (host ++ 47 :: rest) hhost
  obtain ⟨pathBuf, hpathCopy⟩ := copyTerminated_zeros (47 :: rest) hpath
  have hhostText := text_copyTerminated hhostZero hhostCopy
  have hpathText := text_copyTerminated hrestZero hpathCopy
  rw [hhostTake] at hhostText
  rw [hpathTake] at hpathText
  refine ⟨hostBuf, pathBuf, ?_, hhostText, hpathText⟩
  rw [parse_eq hurl hsearch hslash, hhostLen, hpathLen, hhostCopy, hpathCopy]
  rfl

theorem parse_of_fragment {url : CStr} (h : Parts url.val host path)
    (hhost : host.length < httpclientMaxUrlLen) (hmem : (35 : UInt8) ∈ host) :
    utilsParseUrl url (CharBuf.zeros httpclientMaxUrlLen) (CharBuf.zeros httpclientMaxUrlLen) =
      none := by
  obtain ⟨scheme, rest, hurl, hsearch, hslash, -⟩ := h
  obtain ⟨hostBuf, hhostCopy⟩ := copyTerminated_zeros (host ++ 47 :: rest) hhost
  have hle := le_pathLen rest hhost hmem
  have hpathCopy : copyTerminated (CharBuf.zeros httpclientMaxUrlLen) (47 :: rest)
      (pathLen (host ++ 47 :: rest) host.length) = none := by
    rw [copyTerminated, CharBuf.length_zeros, if_neg (by omega)]
  rw [parse_eq hurl hsearch hslash, toUint32_of_lt (Nat.lt_trans hhost (by decide)), hhostCopy,
    hpathCopy]
  rfl

theorem short_of_parse {url : CStr} {hostBuf pathBuf : CharBuf} {hostStr pathStr : CStr}
    (hparse : utilsParseUrl url (CharBuf.zeros httpclientMaxUrlLen)
      (CharBuf.zeros httpclientMaxUrlLen) = some (State.success, hostBuf, pathBuf))
    (h : Parts url.val hostStr.val pathStr.val) (hhost : hostBuf.text = some hostStr)
    (hpath : pathBuf.text = some pathStr) :
    hostStr.strlen < httpclientMaxUrlLen ∧ pathStr.strlen < httpclientMaxUrlLen ∧
      (35 : UInt8) ∉ hostStr.val := by
  have hfragment := parse_of_fragment h
  obtain ⟨scheme, rest, hurl, hsearch, hslash, -⟩ := h
  have hcopied := hparse
  rw [parse_eq hurl hsearch hslash] at hcopied
  obtain ⟨hostBuf', hhostCopy, hbind⟩ := Option.bind_eq_some_iff.mp hcopied
  obtain ⟨pathBuf', hpathCopy, hsome⟩ := Option.bind_eq_some_iff.mp hbind
  cases hsome
  have hhostLt := strlen_lt_of_text hhost
  have hpathLt := strlen_lt_of_text hpath
  rw [length_copyTerminated hhostCopy, CharBuf.length_zeros] at hhostLt
  rw [length_copyTerminated hpathCopy, CharBuf.length_zeros] at hpathLt
  refine ⟨hhostLt, hpathLt, fun hmem => ?_⟩
  rw [hfragment hhostLt hmem] at hparse
  cases hparse

end Parse

/-! ## The request line -/

/-- Whatever the transport returns, the request is written, beginning with the line in full. -/
def Emits (r : Request) : Prop :=
  ∀ results, (∀ fuel, ∀ w ∈ (httpSendHeader results fuel r).2.writes, r.lineText <+: w.1) ∧
    ∃ fuel, (httpSendHeader results fuel r).2.writes ≠ []

theorem emits_of_short (r : Request) (hhost : r.host.strlen < httpclientMaxUrlLen)
    (hpath : r.path.strlen < httpclientMaxUrlLen) : Emits r := by
  have hmeth : r.method.meth.length ≤ 6 := by
    cases r.method <;> decide
  have hversion : (text " HTTP/1.1\r\nHost: ").length = 17 := rfl
  have hlt : r.lineText.length < httpclientSendBufSize := by
    change r.host.val.length < 256 at hhost
    change r.path.val.length < 256 at hpath
    show r.lineText.length < 1024
    simp only [Request.lineText, List.length_append, List.length_cons, List.length_nil, hversion]
    omega
  intro results
  refine ⟨fun fuel w hw => ?_, 1, exists_write r⟩
  have hprefix := line_prefix r fuel w hw
  rwa [line_bytes, snprintf_eq_self hlt] at hprefix

/-- A URL is refused, or its host and path are copied with terminators and stand in the line of
every request. -/
def UrlLaw (url : CStr) : Prop :=
  ∃ ret hostBuf pathBuf, utilsParseUrl url (CharBuf.zeros httpclientMaxUrlLen)
      (CharBuf.zeros httpclientMaxUrlLen) = some (ret, hostBuf, pathBuf) ∧
    (ret = State.success → ∃ host path : CStr, Parts url.val host.val path.val ∧
      hostBuf.text = some host ∧ pathBuf.text = some path ∧
      ∀ method header post, Emits ⟨method, host, path, header, post⟩)

/-- A URL with a host and a path is treated so exactly if they are shorter than the arrays and no
fragment begins in the host. -/
theorem url_iff (url : CStr) :
    UrlLaw url ↔ ∀ host path, Parts url.val host path →
      host.length < httpclientMaxUrlLen ∧ path.length < httpclientMaxUrlLen ∧
        (35 : UInt8) ∉ host := by
  constructor
  · rintro ⟨ret, hostBuf, pathBuf, hparse, hlaw⟩ host path hparts
    have hret : ret = State.success := by
      obtain ⟨scheme, rest, hurl, hsearch, hslash, -⟩ := hparts
      have hcopied := hparse
      rw [parse_eq hurl hsearch hslash] at hcopied
      obtain ⟨_, _, hbind⟩ := Option.bind_eq_some_iff.mp hcopied
      obtain ⟨_, _, hsome⟩ := Option.bind_eq_some_iff.mp hbind
      exact (congrArg Prod.fst (Option.some.inj hsome)).symm
    obtain ⟨hostStr, pathStr, hparts', hhost, hpath, -⟩ := hlaw hret
    obtain ⟨rfl, rfl⟩ := parts_unique hparts hparts'
    rw [hret] at hparse
    exact short_of_parse hparse hparts' hhost hpath
  · intro hshort
    rcases parse_cases url (CharBuf.zeros httpclientMaxUrlLen) (CharBuf.zeros httpclientMaxUrlLen)
      with ⟨ret, hret, hparse⟩ | ⟨host, path, hparts⟩
    · exact ⟨ret, _, _, hparse, fun hsuccess => absurd hsuccess hret⟩
    · obtain ⟨hhost, hpath, hfragment⟩ := hshort host path hparts
      obtain ⟨hostBuf, pathBuf, hparse, hhostText, hpathText⟩ :=
        parse_of_short hparts hhost hpath hfragment
      obtain ⟨hostStr, hhostStr, rfl⟩ := Option.map_eq_some_iff.mp hhostText
      obtain ⟨pathStr, hpathStr, rfl⟩ := Option.map_eq_some_iff.mp hpathText
      exact ⟨_, hostBuf, pathBuf, hparse, fun _ => ⟨hostStr, pathStr, hparts, hhostStr, hpathStr,
        fun method header post => emits_of_short _ hhost hpath⟩⟩

/-- `http://a#b/c`: the fragment begins in the host. -/
def fragmentInHost : CStr := ⟨text "http://a#b/c", by decide⟩

/-- The length of the path is negative there, and nothing bounds a long path either. -/
theorem fragment_outside :
    utilsParseUrl fragmentInHost (CharBuf.zeros httpclientMaxUrlLen)
        (CharBuf.zeros httpclientMaxUrlLen) = none ∧
      ¬ UrlLaw fragmentInHost := by
  have hnone : utilsParseUrl fragmentInHost (CharBuf.zeros httpclientMaxUrlLen)
      (CharBuf.zeros httpclientMaxUrlLen) = none :=
    @parse_of_fragment (text "a#b") (text "/c") _
      ⟨text "http", text "c", rfl, by decide, by decide, rfl⟩ (by decide) (by decide)
  refine ⟨hnone, ?_⟩
  rintro ⟨ret, hostBuf, pathBuf, hparse, -⟩
  rw [hnone] at hparse
  cases hparse

end AliyunIot.Httpc.Url
