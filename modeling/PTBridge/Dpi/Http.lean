import PTBridge.Dpi.Common

/-!
# HTTP requests and their routing

What the server sees of a request, and how it gets to a handler: the `http.ServeMux` with the
four patterns `NewServer` registers, and the connection id that `handleDownload` scans out of
the path with `fmt.Sscanf`.

The mux matches on the escaped path, segment by segment, while the handler reads the decoded
path; a request carries both.
-/

namespace PTBridge.Dpi

open PTBridge.Stream

/-! ## Requests and replies -/

inductive Method where
  | get
  | head
  | post
  | put
  | connect
  | other (name : List Char)
  deriving DecidableEq

structure Request where
  method : Method
  /-- `r.URL.EscapedPath()` -/
  escapedPath : List Char
  /-- `r.URL.Path` -/
  path : List Char
  /-- What `io.ReadAll(r.Body)` returns; `none` is its error. -/
  body : Option Bytes
  deriving DecidableEq

/-- A response: the status, the `Location` header (empty if absent) and the text a handler
writes. The frames of a download are kept apart, and the link that `http.Redirect` writes is left
out. -/
structure Response where
  status : Nat
  location : List Char
  body : List Char
  deriving DecidableEq

/-- `http.Error`. -/
def httpError (text : List Char) (status : Nat) : Response := ⟨status, [], text ++ ['\n']⟩

def methodNotAllowed : Response := httpError "Method Not Allowed".toList 405
def badRequest : Response := httpError "Bad Request".toList 400
def notFound : Response := httpError "Not Found".toList 404

/-- The mux's own replies: a request for `*`, and a path that it redirects. -/
def badTarget : Response := ⟨400, [], []⟩
def moved (location : List Char) : Response := ⟨301, location, []⟩

/-- The replies of `handleRoot`. -/
def found (redirectURL : List Char) : Response := ⟨302, redirectURL, []⟩
def servicePage : Response :=
  ⟨200, [], ("<!DOCTYPE html><html><head><title>Service</title></head>" ++
    "<body><h1>Service Unavailable</h1></body></html>").toList⟩

/-- The head of a download. -/
def streaming : Response := ⟨200, [], []⟩

/-- The reply `{"status":"ok"}`. -/
def statusOk : Response := ⟨200, [], "\x7b\"status\":\"ok\"\x7d".toList⟩

/-- The reply to a `Connect` whose dial failed. -/
def connectFailed : Response :=
  ⟨200, [], "\x7b\"status\":\"error\",\"msg\":\"connect failed\"\x7d".toList⟩

/-- The reply to a `Connect` that was registered. -/
def connected (connID : UInt32) : Response :=
  ⟨200, [], "\x7b\"status\":\"ok\",\"conn_id\":".toList ++ Nat.toDigits 10 connID.toNat ++
    "\x7d".toList⟩

/-! ## http.ServeMux -/

/-- The handlers the mux can choose. -/
inductive Route where
  | badRequest
  | redirect (location : List Char)
  | tunnel
  | download
  | root
  deriving DecidableEq

def hexVal (c : Char) : Option Nat :=
  if c.isDigit then some (c.toNat - '0'.toNat)
  else if 'a' ≤ c ∧ c ≤ 'f' then some (c.toNat - 'a'.toNat + 10)
  else if 'A' ≤ c ∧ c ≤ 'F' then some (c.toNat - 'A'.toNat + 10)
  else none

/-- `url.PathUnescape`; `none` is its error. -/
def unescape : List Char → Option (List Char)
  | [] => some []
  | '%' :: a :: b :: rest =>
      match hexVal a, hexVal b with
      | some x, some y => (unescape rest).map (Char.ofNat (16 * x + y) :: ·)
      | _, _ => none
  | '%' :: _ => none
  | c :: rest => (unescape rest).map (c :: ·)

/-- The segments the mux compares; one that does not unescape is compared as it is. -/
def segments (path : List Char) : List (List Char) :=
  ((path.drop 1).splitOn '/').map fun seg => (unescape seg).getD seg

/-- One segment of `path.Clean` on a rooted path, over the stack of those kept so far. -/
def cleanSegment (kept : List (List Char)) (seg : List Char) : List (List Char) :=
  if seg = [] ∨ seg = ['.'] then kept
  else if seg = ['.', '.'] then kept.drop 1
  else seg :: kept

/-- `cleanPath` of `net/http`. -/
def cleanPath (p : List Char) : List Char :=
  let rooted := if p.head? = some '/' then p else '/' :: p
  let np := '/' :: ['/'].intercalate ((rooted.splitOn '/').foldl cleanSegment []).reverse
  if rooted.getLast? = some '/' ∧ np ≠ ['/'] then np ++ ['/'] else np

/-- The pattern with the most specific match. -/
def matchPath (path : List Char) : Route :=
  let segs := segments path
  if 2 ≤ segs.length ∧ segs.take 1 = ["download".toList] then .download
  else if 3 ≤ segs.length ∧ segs.take 2 = [".well-known".toList, "cdn-cache".toList] then .tunnel
  else if segs = ["api".toList, "v2".toList, "upload".toList] then .tunnel
  else .root

/-- A registered subtree named without its final slash; the mux redirects it to the subtree. -/
def isSubtreeRoot (path : List Char) : Bool :=
  path = [] || segments path = ["download".toList] ||
    segments path = [".well-known".toList, "cdn-cache".toList]

/-- `ServeMux` with the patterns of `NewServer`. The path of a CONNECT request is not cleaned. -/
def mux (r : Request) : Route :=
  let path := if r.method = .connect then r.escapedPath else cleanPath r.escapedPath
  if r.escapedPath = ['*'] then .badRequest
  else if isSubtreeRoot path then .redirect (path ++ ['/'])
  else if path ≠ r.escapedPath then .redirect path
  else matchPath path

/-! ## The connection id in a download path -/

/-- `isSpace` of `fmt`. -/
def isSpace (c : Char) : Bool :=
  let n := c.toNat
  (0x09 ≤ n ∧ n ≤ 0x0d) ∨ n = 0x20 ∨ n = 0x85 ∨ n = 0xa0 ∨ n = 0x1680 ∨
    (0x2000 ≤ n ∧ n ≤ 0x200a) ∨ n = 0x2028 ∨ n = 0x2029 ∨ n = 0x202f ∨ n = 0x205f ∨ n = 0x3000

/-- `SkipSpace` of `fmt`; a newline is an error (`none`). -/
def skipSpace : List Char → Option (List Char)
  | [] => some []
  | c :: rest =>
      if c = '\n' then none
      else if isSpace c then skipSpace rest
      else some (c :: rest)

/-- `fmt.Sscanf(s, "%d", &v)` for `v : uint32`: what follows the digits is ignored. -/
def scanUint32 (s : List Char) : Option UInt32 :=
  (skipSpace s).bind fun t =>
    let digits := t.takeWhile Char.isDigit
    if digits = [] then none
    else if Nat.ofDigitChars 10 digits 0 < 2 ^ 32 then
      some (UInt32.ofNat (Nat.ofDigitChars 10 digits 0))
    else none

/-- `strings.TrimPrefix`. -/
def trimPrefix (s pre : List Char) : List Char :=
  if pre.isPrefixOf s then s.drop pre.length else s

/-- The connection id `handleDownload` takes from the path; `none` is its 404. -/
def downloadConnID (path : List Char) : Option UInt32 :=
  let connIDStr := trimPrefix path "/download/".toList
  if connIDStr = [] then none else scanUint32 connIDStr

/-! ## The client's paths -/

/-- The path of `DownloadStream`: `/download/%d`. -/
def downloadPath (connID : UInt32) : List Char :=
  "/download/".toList ++ Nat.toDigits 10 connID.toNat

theorem isDigit_of_mem_toDigits {n : Nat} {c : Char} (h : c ∈ Nat.toDigits 10 n) :
    c.isDigit = true :=
  Nat.isDigit_of_mem_toDigits (by omega) (by omega) h

/-- A digit is none of the characters the path functions look for. -/
theorem digit_ne {c : Char} (h : c.isDigit = true) :
    c ≠ '/' ∧ c ≠ '.' ∧ c ≠ '%' ∧ c ≠ '\n' ∧ isSpace c = false := by
  have hc : 48 ≤ c.toNat ∧ c.toNat ≤ 57 := by
    simp only [Char.isDigit, ge_iff_le, Bool.and_eq_true, decide_eq_true_eq,
      UInt32.le_iff_toNat_le] at h
    exact h
  refine ⟨?_, ?_, ?_, ?_, ?_⟩
  · rintro rfl
    simp at hc
  · rintro rfl
    simp at hc
  · rintro rfl
    simp at hc
  · rintro rfl
    simp at hc
  · simp only [isSpace, decide_eq_false_iff_not]
    omega

/-- Scanning a printed id gives the id back. -/
theorem scanUint32_toDigits (connID : UInt32) :
    scanUint32 (Nat.toDigits 10 connID.toNat) = some connID := by
  have hall : ∀ c ∈ Nat.toDigits 10 connID.toNat, c.isDigit = true :=
    fun c hc => isDigit_of_mem_toDigits hc
  have hskip : skipSpace (Nat.toDigits 10 connID.toNat) = some (Nat.toDigits 10 connID.toNat) := by
    cases hd : Nat.toDigits 10 connID.toNat with
    | nil => rfl
    | cons c rest =>
      obtain ⟨-, -, -, hnl, hsp⟩ := digit_ne (hall c (by rw [hd]; exact List.mem_cons_self))
      simp [skipSpace, hnl, hsp]
  have htake : (Nat.toDigits 10 connID.toNat).takeWhile Char.isDigit =
      Nat.toDigits 10 connID.toNat := by
    rw [List.takeWhile_eq_self_iff]
    exact hall
  have hlt : connID.toNat < 2 ^ 32 := connID.toNat_lt
  simp only [scanUint32, hskip, Option.bind_some, htake, Nat.toDigits_ne_nil, ↓reduceIte,
    Nat.ofDigitChars_ten_toDigits, hlt, UInt32.ofNat_toNat]

theorem downloadConnID_downloadPath (connID : UInt32) :
    downloadConnID (downloadPath connID) = some connID := by
  have htrim : trimPrefix (downloadPath connID) "/download/".toList =
      Nat.toDigits 10 connID.toNat := by
    have hpre : "/download/".toList.isPrefixOf (downloadPath connID) = true :=
      List.isPrefixOf_iff_prefix.mpr (List.prefix_append _ _)
    rw [trimPrefix, if_pos hpre]
    exact List.drop_left' rfl
  simp only [downloadConnID, htrim, Nat.toDigits_ne_nil, ↓reduceIte, scanUint32_toDigits]

/-- A segment without escapes is compared as it is. -/
theorem unescape_of_no_percent {seg : List Char} (h : ∀ c ∈ seg, c ≠ '%') :
    unescape seg = some seg := by
  induction seg with
  | nil => rfl
  | cons c rest ih =>
    have hc : c ≠ '%' := h c List.mem_cons_self
    have hrest := ih fun d hd => h d (List.mem_cons_of_mem _ hd)
    rw [unescape.eq_4 _ _ (fun a b r hcr => absurd hcr hc) (fun hcr => absurd hcr hc), hrest]
    rfl

/-- Splitting takes off what stands before the first separator. -/
theorem splitOn_slash {seg : List Char} (h : ∀ c ∈ seg, c ≠ '/') (rest : List Char) :
    (seg ++ '/' :: rest).splitOn '/' = seg :: rest.splitOn '/' := by
  have hseg : ∀ c ∈ seg, (c == '/') = false := fun c hc => beq_eq_false_iff_ne.mpr (h c hc)
  have hsplit := List.splitOnP_append_cons (p := (· == '/')) seg rest (beq_self_eq_true '/')
  rw [List.splitOnP_eq_singleton hseg] at hsplit
  exact hsplit

theorem splitOn_no_slash {seg : List Char} (h : ∀ c ∈ seg, c ≠ '/') :
    seg.splitOn '/' = [seg] :=
  List.splitOnP_eq_singleton fun c hc => beq_eq_false_iff_ne.mpr (h c hc)

section DownloadPath

variable (connID : UInt32)

theorem digits_no_slash : ∀ c ∈ Nat.toDigits 10 connID.toNat, c ≠ '/' := fun _ hc =>
  (digit_ne (isDigit_of_mem_toDigits hc)).1

/-- What follows the first slash of a download path. -/
theorem splitOn_download_tail :
    ("download".toList ++ '/' :: Nat.toDigits 10 connID.toNat).splitOn '/' =
      ["download".toList, Nat.toDigits 10 connID.toNat] := by
  rw [splitOn_slash (by simp), splitOn_no_slash (digits_no_slash connID)]

theorem cleanPath_downloadPath : cleanPath (downloadPath connID) = downloadPath connID := by
  -- the digits are one path segment, and not a dot segment
  have hne : Nat.toDigits 10 connID.toNat ≠ [] := Nat.toDigits_ne_nil
  have hdot : ∀ c ∈ Nat.toDigits 10 connID.toNat, c ≠ '.' := fun c hc =>
    (digit_ne (isDigit_of_mem_toDigits hc)).2.1
  have hshape : downloadPath connID =
      [] ++ '/' :: ("download".toList ++ '/' :: Nat.toDigits 10 connID.toNat) := rfl
  have hsplit : (downloadPath connID).splitOn '/' =
      [[], "download".toList, Nat.toDigits 10 connID.toNat] := by
    rw [hshape, splitOn_slash (by simp), splitOn_download_tail]
  have hkeep : ∀ kept, cleanSegment kept (Nat.toDigits 10 connID.toNat) =
      Nat.toDigits 10 connID.toNat :: kept := by
    intro kept
    cases hd : Nat.toDigits 10 connID.toNat with
    | nil => exact absurd hd hne
    | cons c rest =>
      have hc : c ≠ '.' := hdot c (by rw [hd]; exact List.mem_cons_self)
      simp [cleanSegment, hc]
  have hfold : ([[], "download".toList, Nat.toDigits 10 connID.toNat].foldl cleanSegment []) =
      [Nat.toDigits 10 connID.toNat, "download".toList] := by
    rw [List.foldl_cons, List.foldl_cons, List.foldl_cons, List.foldl_nil, hkeep]
    rfl
  have hlast : (downloadPath connID).getLast? ≠ some '/' := fun h =>
    absurd rfl (digits_no_slash connID '/'
      (List.mem_of_getLast? ((List.getLast?_append_of_ne_nil "/download/".toList hne).symm.trans h)))
  have hrooted : (downloadPath connID).head? = some '/' := rfl
  simp only [cleanPath, hrooted, ↓reduceIte, hsplit, hlast, false_and, hfold, List.reverse_cons,
    List.reverse_nil, List.nil_append, List.cons_append, List.intercalate_cons_cons,
    List.intercalate_singleton]
  rfl

theorem segments_downloadPath :
    segments (downloadPath connID) = ["download".toList, Nat.toDigits 10 connID.toNat] := by
  have hdrop : (downloadPath connID).drop 1 =
      "download".toList ++ '/' :: Nat.toDigits 10 connID.toNat := rfl
  have hplain : unescape (Nat.toDigits 10 connID.toNat) = some (Nat.toDigits 10 connID.toNat) :=
    unescape_of_no_percent fun c hc => (digit_ne (isDigit_of_mem_toDigits hc)).2.2.1
  rw [segments, hdrop, splitOn_download_tail, List.map_cons, List.map_singleton, hplain]
  rfl

/-- The mux hands the client's download requests to `handleDownload`. -/
theorem mux_downloadPath (body : Option Bytes) :
    mux ⟨.get, downloadPath connID, downloadPath connID, body⟩ = .download := by
  have hstar : downloadPath connID ≠ ['*'] := by
    intro h
    have hhead : (downloadPath connID).head? = some '/' := rfl
    rw [h] at hhead
    exact absurd hhead (by decide)
  have hroot : isSubtreeRoot (downloadPath connID) = false := by
    rw [isSubtreeRoot, segments_downloadPath]
    rfl
  have hmatch : matchPath (downloadPath connID) = .download := by
    rw [matchPath, segments_downloadPath]
    rfl
  simp only [mux, hstar, ↓reduceIte, reduceCtorEq, cleanPath_downloadPath, hroot,
    Bool.false_eq_true, ne_eq, not_true_eq_false, hmatch]

end DownloadPath

end PTBridge.Dpi
