import PTBridge.Net.HostPort

/-!
# `common/urls`: `ResolveAddr`

The addresses of the obfs configuration are resolved without DNS: a host has to be an IP address.
`ResolveAddr` first tries `net.SplitHostPort`; when that fails on a text with more than one colon it
puts brackets around everything before the last colon and tries again, so that an IPv6 address may
be given without brackets.

- `splitAddr_eq_ok`: the two attempts accept a host with or without brackets, whatever its colons.
- `resolveAddr_exact`: which texts are resolved, and to what.
- `resolveAddr_print`: every printed address and port is resolved to itself.
-/

namespace PTBridge.Urls

open PTBridge.Net PTBridge.Stream

/-- `net.TCPAddr` without a zone. -/
structure TCPAddr where
  ip : IP
  port : Nat
  deriving DecidableEq, Repr

/-- The errors of `ResolveAddr`. -/
inductive ResolveError where
  /-- of `net.SplitHostPort` -/
  | split (err : AddrError)
  /-- `"address string %q lacks a host part"` -/
  | lacksHost (addrStr : Bytes)
  /-- `"address string %q lacks a port part"` -/
  | lacksPort (addrStr : Bytes)
  /-- `"not an IP string: %q"` -/
  | notIP (ipStr : Bytes)
  /-- of `ParsePort` -/
  | port (err : NumError)
  deriving DecidableEq, Repr

def parsePort (portStr : Bytes) : Except NumError Nat := parseUint 65535 portStr

/-- Both attempts of `ResolveAddr` to split the text. -/
def splitAddr (addrStr : Bytes) : Except AddrError (Bytes × Bytes) :=
  match splitHostPort addrStr with
  | .ok parts => .ok parts
  | .error err =>
      let parts := addrStr.splitOn colon
      if parts.length ≤ 2 then .error err
      else
        splitHostPort ([lbracket] ++ [colon].intercalate parts.dropLast ++ [rbracket, colon] ++
          parts.getLastD [])

def resolveAddr (addrStr : Bytes) : Except ResolveError TCPAddr :=
  match splitAddr addrStr with
  | .error err => .error (.split err)
  | .ok (ipStr, portStr) =>
      if ipStr = [] then .error (.lacksHost addrStr)
      else if portStr = [] then .error (.lacksPort addrStr)
      else
        match parseIP ipStr with
        | none => .error (.notIP ipStr)
        | some ip =>
            match parsePort portStr with
            | .error err => .error (.port err)
            | .ok port => .ok ⟨ip, port⟩

/-! ## Splitting -/

variable {s host port : Bytes}

/-- A text is cut at its last colon in one way. -/
theorem last_colon_inj {pre post pre' post' : Bytes}
    (heq : pre ++ [colon] ++ post = pre' ++ [colon] ++ post') (hpost : colon ∉ post)
    (hpost' : colon ∉ post') : pre = pre' ∧ post = post' := by
  have hlast : lastIndexByte colon (pre ++ [colon] ++ post) = some pre.length :=
    lastIndexByte_eq_some.mpr ⟨pre, post, by simp, rfl, hpost⟩
  have hlast' : lastIndexByte colon (pre ++ [colon] ++ post) = some pre'.length :=
    lastIndexByte_eq_some.mpr ⟨pre', post', by rw [heq]; simp, rfl, hpost'⟩
  have hlen : pre.length = pre'.length := Option.some.inj (hlast.symm.trans hlast')
  obtain ⟨hfront, hback⟩ := List.append_inj heq (by simp [hlen])
  exact ⟨List.append_cancel_right hfront, hback⟩

/-- `strings.Split` at the last colon. -/
theorem splitOn_last {pre post : Bytes} (hpost : colon ∉ post) :
    (pre ++ [colon] ++ post).splitOn colon = pre.splitOn colon ++ [post] := by
  have hsplit := List.splitOnP_append_cons (p := (· == colon)) pre post (beq_self_eq_true colon)
  have hsingle : ∀ c ∈ post, (c == colon) = false := by
    intro c hc
    rw [beq_eq_false_iff_ne]
    rintro rfl
    exact hpost hc
  rw [List.splitOnP_eq_singleton hsingle] at hsplit
  rw [List.append_assoc]
  exact hsplit

theorem one_lt_length_splitOn {pre : Bytes} (h : colon ∈ pre) :
    1 < (pre.splitOn colon).length := by
  obtain ⟨front, back, rfl⟩ := List.append_of_mem h
  have hsplit := List.splitOnP_append_cons (p := (· == colon)) front back (beq_self_eq_true colon)
  have hfront := List.length_pos_iff.mpr (List.splitOnP_ne_nil (· == colon) front)
  have hback := List.length_pos_iff.mpr (List.splitOnP_ne_nil (· == colon) back)
  unfold List.splitOn
  rw [hsplit, List.length_append]
  omega

/-- The second attempt: brackets around everything before the last colon. -/
theorem splitAddr_retry {pre post : Bytes} {err : AddrError} (hpost : colon ∉ post)
    (hfirst : splitHostPort (pre ++ [colon] ++ post) = .error err) :
    splitAddr (pre ++ [colon] ++ post) =
      if colon ∈ pre then splitHostPort ([lbracket] ++ pre ++ [rbracket, colon] ++ post)
      else .error err := by
  unfold splitAddr
  rw [hfirst]
  simp only [splitOn_last hpost, List.length_append, List.length_singleton]
  split
  · rename_i hshort
    rw [if_neg]
    intro hmem
    have := one_lt_length_splitOn hmem
    omega
  · rename_i hlong
    have hmem : colon ∈ pre := by
      by_contra hnot
      have hsingle : ∀ c ∈ pre, (c == colon) = false := by
        intro c hc
        rw [beq_eq_false_iff_ne]
        rintro rfl
        exact hnot hc
      have hone : pre.splitOn colon = [pre] := List.splitOnP_eq_singleton hsingle
      rw [hone] at hlong
      simp at hlong
    rw [if_pos hmem]
    simp [List.intercalate_splitOn]

/-- A text that begins with a bracket is not a plain `host:port`. -/
theorem plain_ne_bracketed {rest : Bytes} (hhost : NoBrackets host) :
    host ++ [colon] ++ port ≠ lbracket :: rest := by
  intro heq
  cases host with
  | nil =>
    have hne : colon ≠ lbracket := by decide
    exact hne (List.cons.inj heq).1
  | cons b host =>
    obtain ⟨rfl, -⟩ := List.cons.inj heq
    exact hhost.1 List.mem_cons_self

/-- What the two attempts accept: a host with or without brackets around it. -/
theorem splitAddr_eq_ok :
    splitAddr s = .ok (host, port) ↔
      (s = host ++ [colon] ++ port ∨ s = [lbracket] ++ host ++ [rbracket, colon] ++ port) ∧
        NoBrackets host ∧ NoBrackets port ∧ colon ∉ port := by
  constructor
  · intro h
    cases hfirst : splitHostPort s with
    | ok parts =>
      have hparts : parts = (host, port) := by
        unfold splitAddr at h
        rw [hfirst] at h
        exact Except.ok.inj h
      rw [hparts] at hfirst
      obtain ⟨hform, hplain⟩ := splitHostPort_eq_ok.mp hfirst
      refine ⟨?_, hplain⟩
      cases hform with
      | plain => exact .inl rfl
      | bracketed => exact .inr rfl
    | error err =>
      -- the text has a colon, or the first error stands
      have hcolon : colon ∈ s := by
        by_contra hnot
        have hone : s.splitOn colon = [s] :=
          List.splitOnP_eq_singleton fun c hc =>
            beq_eq_false_iff_ne.mpr fun heq => hnot (heq ▸ hc)
        unfold splitAddr at h
        rw [hfirst] at h
        simp [hone] at h
      obtain ⟨i, hi⟩ := Option.ne_none_iff_exists'.mp (mt lastIndexByte_eq_none.mp (not_not.mpr hcolon))
      obtain ⟨pre, post, hs, -, hpost⟩ := lastIndexByte_eq_some.mp hi
      obtain rfl : s = pre ++ [colon] ++ post := by rw [hs]; simp
      rw [splitAddr_retry hpost hfirst] at h
      split at h
      · obtain ⟨hform, hplain⟩ := splitHostPort_eq_ok.mp h
        have hcut : pre = host ∧ post = port := by
          generalize htext : [lbracket] ++ pre ++ [rbracket, colon] ++ post = text at hform
          cases hform with
          | plain => exact absurd htext.symm (plain_ne_bracketed hplain.1)
          | bracketed =>
            have heq : ([lbracket] ++ pre ++ [rbracket]) ++ [colon] ++ post =
                ([lbracket] ++ host ++ [rbracket]) ++ [colon] ++ port := by simpa using htext
            obtain ⟨hfront, hback⟩ := last_colon_inj heq hpost hplain.2.2
            exact ⟨by simpa using hfront, hback⟩
        obtain ⟨rfl, rfl⟩ := hcut
        exact ⟨.inl rfl, hplain⟩
      · cases h
  · rintro ⟨rfl | rfl, hhost, hport, hcolon⟩
    · cases hfirst : splitHostPort (host ++ [colon] ++ port) with
      | ok parts =>
        obtain ⟨host', port'⟩ := parts
        obtain ⟨hform, hhost', hport', hcolon'⟩ := splitHostPort_eq_ok.mp hfirst
        have hcut : host = host' ∧ port = port' := by
          generalize htext : host ++ [colon] ++ port = text at hform
          cases hform with
          | plain => exact last_colon_inj htext hcolon hcolon'
          | bracketed => exact absurd htext (plain_ne_bracketed hhost)
        obtain ⟨rfl, rfl⟩ := hcut
        unfold splitAddr
        rw [hfirst]
      | error err =>
        rw [splitAddr_retry hcolon hfirst]
        split
        · exact splitHostPort_bracketed hhost hport hcolon
        · rename_i hplain
          rw [splitHostPort_plain hhost hport hplain hcolon] at hfirst
          cases hfirst
    · unfold splitAddr
      rw [splitHostPort_bracketed hhost hport hcolon]

/-! ## Resolving -/

/-- The text of an address, with or without brackets, and of a port is resolved. -/
theorem resolveAddr_accepts {addr : TCPAddr}
    (hform : s = host ++ [colon] ++ port ∨ s = [lbracket] ++ host ++ [rbracket, colon] ++ port)
    (hip : parseIP host = some addr.ip) (hport : parsePort port = .ok addr.port) :
    resolveAddr s = .ok addr := by
  obtain ⟨-, hport_ne, hdigits⟩ := parseUint_ok hport
  obtain ⟨hport_plain, hcolon⟩ := plain_of_digits hdigits
  have hsplit : splitAddr s = .ok (host, port) :=
    splitAddr_eq_ok.mpr ⟨hform, noBrackets_of_parseIP hip, hport_plain, hcolon⟩
  unfold resolveAddr
  rw [hsplit]
  simp only [if_neg (parseIP_chars hip).1, if_neg hport_ne, hip, hport]

/-- Nothing else is resolved. -/
theorem resolveAddr_parts {addr : TCPAddr} (h : resolveAddr s = .ok addr) :
    ∃ host port,
      (s = host ++ [colon] ++ port ∨ s = [lbracket] ++ host ++ [rbracket, colon] ++ port) ∧
        parseIP host = some addr.ip ∧ parsePort port = .ok addr.port := by
  unfold resolveAddr at h
  split at h
  · cases h
  · rename_i ipStr portStr hsplit
    split at h
    · cases h
    · split at h
      · cases h
      · split at h
        · cases h
        · rename_i ip hip
          split at h
          · cases h
          · rename_i port hport
            cases h
            exact ⟨ipStr, portStr, (splitAddr_eq_ok.mp hsplit).1, hip, hport⟩

/-- `ResolveAddr` resolves exactly the texts of an IP address, with or without brackets, a colon and
a decimal number of at most 65535, and to this address and number. -/
theorem resolveAddr_exact (s : Bytes) (addr : TCPAddr) :
    resolveAddr s = .ok addr ↔
      ∃ host port,
        (s = host ++ [colon] ++ port ∨ s = [lbracket] ++ host ++ [rbracket, colon] ++ port) ∧
          parseIP host = some addr.ip ∧ parsePort port = .ok addr.port := by
  constructor
  · exact resolveAddr_parts
  · rintro ⟨host, port, hform, hip, hport⟩
    exact resolveAddr_accepts hform hip hport

/-- Every address and port is resolved to itself, in the 16-byte form and with or without
brackets. -/
theorem resolveAddr_print {ip ip16 : IP} {port : Nat} (hip : ip.length = 4 ∨ ip.length = 16)
    (h16 : ip.to16 = some ip16) (hport : port ≤ 65535) :
    resolveAddr (ip.string ++ [colon] ++ itoa port) = .ok ⟨ip16, port⟩ ∧
      resolveAddr (joinHostPort ip.string (itoa port)) = .ok ⟨ip16, port⟩ := by
  have hparse : parseIP ip.string = some ip16 := (parseIP_string hip).trans h16
  have hnum : parsePort (itoa port) = .ok port := parseUint_itoa hport
  refine ⟨resolveAddr_accepts (.inl rfl) hparse hnum, resolveAddr_accepts ?_ hparse hnum⟩
  unfold joinHostPort
  split
  · exact .inr rfl
  · exact .inl rfl

end PTBridge.Urls
