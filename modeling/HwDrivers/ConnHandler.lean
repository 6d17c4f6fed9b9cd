import HwDrivers.Cache
import HwDrivers.Record
import HwDrivers.Reader
import Mathlib.Data.Nat.Cast.Order.Field

/-! `conn_handler` of the cache server (`src/unnamed/part_002`): one `recv` of
the request, its request line read with `sscanf("%15s %255s %15s")`, routing by
`strcmp` on the path, and the finite responses for `/`, `/json` and unknown
paths, each sent as the header `snprintf` rendered and then the body, both
lengths first clamped to their buffers. -/

namespace HwDrivers

/-! ### The C library's text output -/

/-- `snprintf(buf, size, ...)` of a rendered text: what `buf` holds and the
return value, the length of the whole text. -/
def snprintf (size : ℕ) (text : List Char) : List Char × ℤ :=
  (text.take (size - 1), text.length)

/-- A rational that is not negative, rounded to an integer with ties to even,
as glibc rounds in the default rounding mode. -/
def roundHalfEven (x : ℚ) : ℕ :=
  let q := x.num.toNat / x.den
  let r := x.num.toNat % x.den
  if 2 * r < x.den then q else if x.den < 2 * r then q + 1 else q + q % 2

/-- `%.6f` of a double whose exact value is `v`. A negative value keeps its
sign when it rounds to zero. -/
def fixed6 (v : ℚ) : List Char :=
  let m := roundHalfEven (|v| * 10 ^ 6)
  (if v < 0 then ['-'] else []) ++ Nat.toDigits 10 (m / 10 ^ 6) ++
    '.' :: padded 6 (m % 10 ^ 6 : ℕ)

theorem roundHalfEven_natCast (k : ℕ) : roundHalfEven k = k := by
  simp [roundHalfEven, Nat.mod_one]

theorem fixed6_natCast (k : ℕ) : fixed6 k = Nat.toDigits 10 k ++ ".000000".toList := by
  have hk : |(k : ℚ)| * 10 ^ 6 = ((k * 10 ^ 6 : ℕ) : ℚ) := by
    rw [abs_of_nonneg (Nat.cast_nonneg _)]
    norm_cast
  simp only [fixed6, hk, roundHalfEven_natCast,
    Nat.mul_div_cancel _ (Nat.pos_pow_of_pos 6 (by decide : 0 < 10)), Nat.mul_mod_left, Nat.cast_nonneg, not_lt.2, if_false, List.nil_append]
  rfl

theorem roundHalfEven_le {x : ℚ} (hx : 0 ≤ x) : (roundHalfEven x : ℚ) ≤ x + 1 := by
  have hq : roundHalfEven x ≤ x.num.toNat / x.den + 1 := by
    unfold roundHalfEven
    dsimp only
    split_ifs <;> omega
  have hnum : ((x.num.toNat : ℕ) : ℚ) = x.num := by
    rw [← Int.cast_natCast, Int.toNat_of_nonneg (Rat.num_nonneg.2 hx)]
  have hfloor : ((x.num.toNat / x.den : ℕ) : ℚ) ≤ x :=
    calc ((x.num.toNat / x.den : ℕ) : ℚ) ≤ (x.num.toNat : ℚ) / x.den := Nat.cast_div_le
      _ = x := by rw [hnum, Rat.num_div_den]
  calc (roundHalfEven x : ℚ) ≤ ((x.num.toNat / x.den + 1 : ℕ) : ℚ) := by exact_mod_cast hq
    _ ≤ x + 1 := by push_cast; linarith

theorem fixed6_length_le {v : ℚ} {k : ℕ} (hv : |v| < 10 ^ k) : (fixed6 v).length ≤ k + 9 := by
  have hle := roundHalfEven_le (mul_nonneg (abs_nonneg v) (by norm_num : (0 : ℚ) ≤ 10 ^ 6))
  have hm : roundHalfEven (|v| * 10 ^ 6) ≤ 10 ^ 6 * 10 ^ k := by
    have hlt := mul_lt_mul_of_pos_right hv (by norm_num : (0 : ℚ) < 10 ^ 6)
    have : (roundHalfEven (|v| * 10 ^ 6) : ℚ) < 10 ^ 6 * 10 ^ k + 1 := by linarith
    have : roundHalfEven (|v| * 10 ^ 6) < 10 ^ 6 * 10 ^ k + 1 := by exact_mod_cast this
    omega
  have hq : roundHalfEven (|v| * 10 ^ 6) / 10 ^ 6 < 10 ^ (k + 1) := by
    have h1 := Nat.div_le_of_le_mul hm
    have h2 := Nat.pos_pow_of_pos k (by decide : 0 < 10)
    have h3 : 10 ^ (k + 1) = 10 ^ k * 10 := pow_succ 10 k
    omega
  have hd := toDigits_length_le hq (Nat.succ_pos k)
  have hp := (padded_width (Nat.mod_lt (roundHalfEven (|v| * 10 ^ 6))
    (show 0 < 10 ^ 6 by decide)) (by decide)).1
  simp only [fixed6, List.length_append, List.length_cons, hp]
  split <;> simp only [List.length_singleton, List.length_nil] <;> omega

/-! ### The three finite bodies and their headers -/

/-- The page `/` serves, `part_002` lines 285-296. -/
def livePage : List Char :=
  "<!doctype html>\n".toList ++ "<meta charset=\"utf-8\">\n".toList ++
    "<title>Live MPU6050</title>\n".toList ++ "<pre id=\"out\">connecting...</pre>\n".toList ++
    "<p><a href=\"/json\">View JSON data</a></p>\n".toList ++ "<script>\n".toList ++
    "const out = document.getElementById(\x27out\x27);\n".toList ++
    "const es = new EventSource(\x27/events\x27);\n".toList ++
    "es.onmessage = (e) => \x7b out.textContent = e.data; \x7d;\n".toList ++
    "es.onerror = () => \x7b out.textContent += \"\\n[stream error]\"; \x7d;\n".toList ++
    "</script>\n".toList

/-- The 404 body, lines 479-483. -/
def notFoundPage : List Char :=
  "<!doctype html><meta charset=\"utf-8\"><title>404 Not Found</title>".toList ++
    "<h1>404 Not Found</h1>".toList ++ "<p>The requested path was not found.</p>".toList ++
    ("<p><a href=\"/\">Go to home</a> | <a href=\"/json\">View JSON</a> | " ++
      "<a href=\"/events\">View Events</a></p>\n").toList

/-- The seven values of one object of the `/json` body. -/
def jsonGroup (s : Sample) : List Char :=
  "\"ax\":".toList ++ fixed6 s.ax ++ ",\"ay\":".toList ++ fixed6 s.ay ++ ",\"az\":".toList ++
    fixed6 s.az ++ ",\"gx\":".toList ++ fixed6 s.gx ++ ",\"gy\":".toList ++ fixed6 s.gy ++
    ",\"gz\":".toList ++ fixed6 s.gz ++ ",\"temp\":".toList ++ fixed6 s.temp

/-- The `/json` body, lines 311-322, with the seconds of `time(NULL)`. -/
def jsonBody (sample avg : Sample) (timestamp : ℤ) : List Char :=
  "\x7b\"status\":\"ok\",\"sample\":\x7b".toList ++ jsonGroup sample ++
    "\x7d,\"average\":\x7b".toList ++ jsonGroup avg ++ "\x7d,\"timestamp\":".toList ++
    padded 0 timestamp ++ ['\x7d']

/-- A header of a finite response: its status line and first fields, then
`Content-Length: %d` and `Connection: close`. -/
def headText (fields : String) (len : ℤ) : List Char :=
  fields.toList ++ "\r\nContent-Length: ".toList ++ padded 0 len ++
    "\r\nConnection: close\r\n\r\n".toList

/-- The header of `/`, lines 299-306. -/
def liveHead : ℤ → List Char :=
  headText "HTTP/1.1 200 OK\r\nContent-Type: text/html; charset=utf-8\r\nCache-Control: no-store"

/-- The header of `/json`, lines 324-330. -/
def jsonHead : ℤ → List Char :=
  headText "HTTP/1.1 200 OK\r\nContent-Type: application/json"

/-- The header of a 404, lines 485-491. -/
def notFoundHead : ℤ → List Char :=
  headText "HTTP/1.1 404 Not Found\r\nContent-Type: text/html; charset=utf-8"

theorem jsonGroup_length (s : Sample) :
    (jsonGroup s).length = 43 + (fixed6 s.ax).length + (fixed6 s.ay).length +
      (fixed6 s.az).length + (fixed6 s.gx).length + (fixed6 s.gy).length +
      (fixed6 s.gz).length + (fixed6 s.temp).length := by
  simp only [jsonGroup, List.length_append, show "\"ax\":".toList.length = 5 from rfl,
    show ",\"ay\":".toList.length = 6 from rfl, show ",\"az\":".toList.length = 6 from rfl,
    show ",\"gx\":".toList.length = 6 from rfl, show ",\"gy\":".toList.length = 6 from rfl,
    show ",\"gz\":".toList.length = 6 from rfl, show ",\"temp\":".toList.length = 8 from rfl]
  omega

theorem jsonBody_length (sample avg : Sample) (timestamp : ℤ) :
    (jsonBody sample avg timestamp).length =
      53 + (jsonGroup sample).length + (jsonGroup avg).length + (padded 0 timestamp).length := by
  simp only [jsonBody, List.length_append, List.length_singleton,
    show "\x7b\"status\":\"ok\",\"sample\":\x7b".toList.length = 25 from rfl,
    show "\x7d,\"average\":\x7b".toList.length = 13 from rfl,
    show "\x7d,\"timestamp\":".toList.length = 14 from rfl]
  omega

theorem jsonGroup_length_le {s : Sample} {k : ℕ} (h : ∀ v ∈ s.values, |v| < 10 ^ k) :
    (jsonGroup s).length ≤ 43 + 7 * (k + 9) := by
  have hv : ∀ v ∈ s.values, (fixed6 v).length ≤ k + 9 := fun v hv => fixed6_length_le (h v hv)
  simp only [Sample.values, List.mem_cons, List.mem_singleton, List.not_mem_nil, or_false,
    forall_eq_or_imp, forall_eq] at hv
  rw [jsonGroup_length]
  omega

theorem jsonBody_length_le {sample avg : Sample} {k : ℕ} (hs : ∀ v ∈ sample.values, |v| < 10 ^ k)
    (ha : ∀ v ∈ avg.values, |v| < 10 ^ k) {now : ℤ} (hnow : -2 ^ 63 ≤ now ∧ now < 2 ^ 63) :
    (jsonBody sample avg now).length ≤ 159 + 14 * (k + 9) := by
  have ht := @padded_length_le 0 19 now (by omega) (by decide)
  rw [jsonBody_length]
  have := jsonGroup_length_le hs
  have := jsonGroup_length_le ha
  simp only [Nat.zero_max] at ht
  omega

/-! ### A client reading `Content-Length` -/

/-- What follows the first occurrence of `pat` in a text. -/
def after (pat : List Char) : List Char → Option (List Char)
  | [] => none
  | c :: s => if pat <+: c :: s then some ((c :: s).drop pat.length) else after pat s

/-- The value a client reads from the `Content-Length` field of a header, with
`%d`. -/
def contentLength (head : List Char) : Option ℤ :=
  match after "\r\nContent-Length:".toList head with
  | some rest =>
    match (scanf [.int] rest).1 with
    | [.int n] => some n
    | _ => none
  | none => none

theorem after_append {pat : List Char} (hpat : pat ≠ []) {p : List Char}
    (hp : ∀ i < p.length, ¬ pat <+: (p ++ pat).drop i) (rest : List Char) :
    after pat (p ++ pat ++ rest) = some rest := by
  induction p with
  | nil =>
    obtain ⟨c, cs, rfl⟩ := List.exists_cons_of_ne_nil hpat
    simp [after]
  | cons c p ih =>
    have h0 : ¬ pat <+: c :: (p ++ pat ++ rest) := by
      intro h
      have hx : pat <+: (c :: p ++ pat) ++ rest := by simpa only [List.cons_append] using h
      exact hp 0 (Nat.succ_pos _) (@List.prefix_of_prefix_length_le _ pat (c :: p ++ pat) _ hx
        (List.prefix_append _ rest) (by simp only [List.length_append, List.length_cons]; omega))
    show after pat (c :: (p ++ pat ++ rest)) = some rest
    rw [after, if_neg h0]
    exact ih fun i hi => hp (i + 1) (by simp only [List.length_cons]; omega)

theorem skipSpace_blank (x : List Char) : skipSpace (' ' :: x) = skipSpace x :=
  List.dropWhile_cons_of_pos rfl

theorem skipSpace_toDigits (n : ℕ) (t : List Char) :
    skipSpace (Nat.toDigits 10 n ++ t) = Nat.toDigits 10 n ++ t := by
  obtain ⟨d, ds, hds⟩ := List.exists_cons_of_ne_nil (toDigits_ne_nil n)
  have hd := isSpace_of_isDigit (toDigits_digits n d (by simp [hds]))
  simp [skipSpace, hds, hd]

theorem scanInt_toDigits (n : ℕ) {c : Char} (hc : isDigit c = false) (t : List Char) :
    scanInt (Nat.toDigits 10 n ++ c :: t) = some ((n : ℤ), c :: t) := by
  obtain ⟨d, ds, hds⟩ := List.exists_cons_of_ne_nil (toDigits_ne_nil n)
  have hsign : scanSign (Nat.toDigits 10 n ++ c :: t) = (false, Nat.toDigits 10 n ++ c :: t) := by
    rw [hds, List.cons_append]
    exact scanSign_of_digit (toDigits_digits n d (by simp [hds])) _
  simp [scanInt, hsign, spanDigits_append (toDigits_digits n) hc, toDigits_ne_nil,
    digitsValue_toDigits]

theorem contentLength_headText {fields : String}
    (hf : ∀ i < fields.toList.length,
      ¬ "\r\nContent-Length:".toList <+: (fields.toList ++ "\r\nContent-Length:".toList).drop i)
    (n : ℕ) : contentLength (headText fields n) = some n := by
  have hsplit : headText fields n = fields.toList ++ "\r\nContent-Length:".toList ++
      (' ' :: (Nat.toDigits 10 n ++ '\r' :: "\nConnection: close\r\n\r\n".toList)) := by
    simp only [headText, padded_zero_of_nonneg, List.append_assoc]
    rfl
  rw [contentLength, hsplit, after_append (by simp) hf]
  simp only [scanf, skipSpace_blank, skipSpace_toDigits,
    scanInt_toDigits n (show isDigit '\r' = false from rfl)]
  rfl

theorem contentLength_liveHead (n : ℕ) : contentLength (liveHead n) = some n :=
  contentLength_headText (by decide) n

theorem contentLength_jsonHead (n : ℕ) : contentLength (jsonHead n) = some n :=
  contentLength_headText (by decide) n

theorem contentLength_notFoundHead (n : ℕ) : contentLength (notFoundHead n) = some n :=
  contentLength_headText (by decide) n

/-! ### The handler -/

/-- The clamp of lines 494-502 on a length `snprintf` returned for a buffer of
`size` bytes. -/
def clampLen (size : ℕ) (len : ℤ) : ℕ :=
  if len < 0 then 0 else if size ≤ len then size - 1 else len.toNat

/-- What `conn_handler` does with a connection. -/
inductive Response
  /-- It closes the connection and sends nothing. -/
  | closed
  /-- It sends a header, then a body, then closes. -/
  | finite (head body : List Char)
  /-- It serves the event stream of `/events`, the loop `SseHandler` models. -/
  | events
  deriving DecidableEq, Repr

/-- A finite response, lines 494-517: the body rendered into `char body[512]`,
the header into `char header[256]` with the length `snprintf` returned for the
body, both lengths clamped, and each `send` taken to deliver all it is given. -/
def finiteResponse (head : ℤ → List Char) (text : List Char) : Response :=
  let (body, body_len) := snprintf 512 text
  let (header, header_len) := snprintf 256 (head body_len)
  .finite (header.take (clampLen 256 header_len)) (body.take (clampLen 512 body_len))

/-- The handlers `strcmp` on the path selects. -/
inductive Route
  | live
  | json
  | events
  | notFound
  deriving DecidableEq, Repr

/-- Routing by exact path, lines 281-492. -/
def route (path : List Char) : Route :=
  if path = "/".toList then .live
  else if path = "/json".toList then .json
  else if path = "/events".toList then .events
  else .notFound

/-- `"%15s %255s %15s"`. -/
def requestLineFormat : List ScanDirective := [.str 15, .space, .str 255, .space, .str 15]

/-- The string `sscanf` reads: `recv` stores at most 1023 bytes in the zeroed
`char request[1024]`, and the string ends at the first NUL. -/
def requestString (delivered : List Char) : List Char :=
  (delivered.take 1023).takeWhile (· != '\x00')

/-- Lines 238-253: the path, or `none` when the connection is closed because
`recv` returned nothing or `sscanf` did not convert all three words. -/
def parseRequest (delivered : List Char) : Option (List Char) :=
  if delivered = [] then none
  else
    match (scanf requestLineFormat (requestString delivered)).1 with
    | [.str _, .str path, .str _] => some path
    | _ => none

/-- What each route sends, given the pair `get_cached_data` copied and the time. -/
def serve (c : CachedData) (now : ℤ) : Route → Response
  | .live => finiteResponse liveHead livePage
  | .json => finiteResponse jsonHead (jsonBody c.get.1 c.get.2 now)
  | .events => .events
  | .notFound => finiteResponse notFoundHead notFoundPage

/-- `conn_handler` on the bytes one `recv` delivers, with the cache in state `c`
and `time(NULL)` equal to `now`. -/
def connHandler (c : CachedData) (now : ℤ) (delivered : List Char) : Response :=
  match parseRequest delivered with
  | none => .closed
  | some path => serve c now (route path)

theorem finiteResponse_eq {head : ℤ → List Char} {text : List Char}
    (hh : (head text.length).length < 256) :
    finiteResponse head text = .finite (head text.length) (text.take 511) := by
  have hb : (text.take 511).length ≤ clampLen 512 text.length := by
    simp only [List.length_take, clampLen, Int.toNat_natCast]
    split_ifs <;> omega
  have hc : clampLen 256 (head text.length).length = (head text.length).length := by
    simp only [clampLen, Int.toNat_natCast]
    split_ifs <;> omega
  simp only [finiteResponse, snprintf, hc, List.take_of_length_le hb,
    List.take_of_length_le (show (head text.length).length ≤ 256 - 1 by omega),
    List.take_of_length_le le_rfl]

theorem headText_length (fields : String) (n : ℕ) :
    (headText fields n).length = fields.toList.length + 41 + (Nat.toDigits 10 n).length := by
  simp only [headText, padded_zero_of_nonneg, List.length_append,
    show "\r\nContent-Length: ".toList.length = 18 from rfl,
    show "\r\nConnection: close\r\n\r\n".toList.length = 23 from rfl]
  omega

theorem livePage_length : livePage.length = 361 := by
  simp only [livePage, List.length_append]
  rfl

theorem notFoundPage_length : notFoundPage.length = 229 := by
  simp only [notFoundPage, List.length_append]
  rfl

theorem headText_length_lt {fields : String} (hf : fields.toList.length ≤ 100) {n : ℕ}
    (hn : n < 10 ^ 10) : (headText fields n).length < 256 := by
  have hd := toDigits_length_le hn (by decide)
  rw [headText_length]
  omega

theorem serve_live (c : CachedData) (now : ℤ) :
    serve c now .live = .finite (liveHead 361) livePage := by
  have hh : (liveHead livePage.length).length < 256 := by
    rw [livePage_length, liveHead]
    exact headText_length_lt (by decide) (by decide)
  have ht : livePage.take 511 = livePage := List.take_of_length_le (by rw [livePage_length]; decide)
  rw [serve, finiteResponse_eq hh, ht, livePage_length]
  rfl

theorem serve_notFound (c : CachedData) (now : ℤ) :
    serve c now .notFound = .finite (notFoundHead 229) notFoundPage := by
  have hh : (notFoundHead notFoundPage.length).length < 256 := by
    rw [notFoundPage_length, notFoundHead]
    exact headText_length_lt (by decide) (by decide)
  have ht : notFoundPage.take 511 = notFoundPage :=
    List.take_of_length_le (by rw [notFoundPage_length]; decide)
  rw [serve, finiteResponse_eq hh, ht, notFoundPage_length]
  rfl

theorem serve_json {c : CachedData} {now : ℤ}
    (h : (jsonBody c.current_sample c.average now).length < 10 ^ 10) :
    serve c now .json = .finite (jsonHead (jsonBody c.current_sample c.average now).length)
      ((jsonBody c.current_sample c.average now).take 511) := by
  show finiteResponse jsonHead (jsonBody c.current_sample c.average now) = _
  exact finiteResponse_eq (headText_length_lt (by decide) h)

/-! ### Content-Length -/

theorem route_eq_json_iff (path : List Char) : route path = .json ↔ path = "/json".toList := by
  unfold route
  split_ifs with h1 h2 <;> simp_all

/-- What a finite response holds: any route but `/json` announces the body it
sends; `/json` announces the whole rendered body and sends its first 511 bytes. -/
theorem connHandler_finite_cases {c : CachedData} {now : ℤ} {delivered head body : List Char}
    (hL : (jsonBody c.current_sample c.average now).length < 10 ^ 10)
    (h : connHandler c now delivered = .finite head body) :
    (parseRequest delivered ≠ some "/json".toList ∧ contentLength head = some (body.length : ℤ)) ∨
      (parseRequest delivered = some "/json".toList ∧
        contentLength head = some ((jsonBody c.current_sample c.average now).length : ℤ) ∧
        body = (jsonBody c.current_sample c.average now).take 511) := by
  rcases hp : parseRequest delivered with _ | path
  · simp only [connHandler, hp] at h
    cases h
  simp only [connHandler, hp] at h
  have hne : route path ≠ .json → some path ≠ some "/json".toList := fun hr he =>
    hr ((route_eq_json_iff path).2 (Option.some.inj he))
  rcases hr : route path with _ | _ | _ | _
  · rw [hr, serve_live] at h
    obtain ⟨rfl, rfl⟩ := Response.finite.inj h
    exact .inl ⟨hne (by rw [hr]; decide), by rw [livePage_length]; exact contentLength_liveHead 361⟩
  · rw [hr, serve_json hL] at h
    obtain ⟨rfl, rfl⟩ := Response.finite.inj h
    exact .inr ⟨by rw [(route_eq_json_iff path).1 hr], contentLength_jsonHead _, rfl⟩
  · rw [hr] at h
    cases h
  · rw [hr, serve_notFound] at h
    obtain ⟨rfl, rfl⟩ := Response.finite.inj h
    exact .inl ⟨hne (by rw [hr]; decide),
      by rw [notFoundPage_length]; exact contentLength_notFoundHead 229⟩

theorem connHandler_getJson (c : CachedData) (now : ℤ)
    (hL : (jsonBody c.current_sample c.average now).length < 10 ^ 10) :
    connHandler c now "GET /json HTTP/1.1\r\n\r\n".toList =
      .finite (jsonHead (jsonBody c.current_sample c.average now).length)
        ((jsonBody c.current_sample c.average now).take 511) := by
  rw [connHandler, show parseRequest "GET /json HTTP/1.1\r\n\r\n".toList = some "/json".toList
    by decide]
  exact (congrArg (serve c now) ((route_eq_json_iff _).2 rfl)).trans (serve_json hL)

def sampleCache : CachedData :=
  ⟨⟨-12 / 1000, 981 / 1000, 9806 / 1000, 3 / 2, -9 / 4, 1 / 8, 3653 / 100⟩,
    ⟨-1 / 100, 49 / 50, 49 / 5, 1, -2, 0, 73 / 2⟩, 2⟩

theorem sampleCache_small :
    ∀ v ∈ sampleCache.current_sample.values ++ sampleCache.average.values, |v| < 10 ^ 16 := by
  simp only [sampleCache, Sample.values, List.cons_append, List.nil_append, List.mem_cons,
    List.mem_singleton, List.not_mem_nil, or_false, forall_eq_or_imp, forall_eq]
  norm_num [abs_lt]

/-- Over every cache state whose values are floats, every `long` time and
every request, the `Content-Length` of a finite response equals the number of
body bytes sent exactly when the response is not a `/json` one whose body
passes 511 bytes. -/
theorem connHandler_contentLength_iff (c : CachedData) (now : ℤ) (delivered : List Char)
    (hc : ∀ v ∈ c.current_sample.values ++ c.average.values, |v| < 2 ^ 128)
    (hnow : -2 ^ 63 ≤ now ∧ now < 2 ^ 63) {head body : List Char}
    (h : connHandler c now delivered = .finite head body) :
    contentLength head = some (body.length : ℤ) ↔
      (parseRequest delivered = some "/json".toList →
        (jsonBody c.current_sample c.average now).length ≤ 511) := by
  have hf : ∀ v ∈ c.current_sample.values ++ c.average.values, |v| < 10 ^ 39 :=
    fun v hv => (hc v hv).trans (by norm_num)
  have hL := jsonBody_length_le (fun v hv => hf v (List.mem_append_left _ hv))
    (fun v hv => hf v (List.mem_append_right _ hv)) hnow
  rcases connHandler_finite_cases (by omega) h with ⟨hp, hcl⟩ | ⟨hp, hcl, rfl⟩
  · exact iff_of_true hcl fun he => absurd he hp
  · simp only [hcl, hp, List.length_take, Option.some.injEq, Nat.cast_inj, forall_const]
    omega

theorem connHandler_root (c : CachedData) (now : ℤ) :
    connHandler c now "GET / HTTP/1.1\r\n\r\n".toList = .finite (liveHead 361) livePage := by
  rw [connHandler, show parseRequest "GET / HTTP/1.1\r\n\r\n".toList = some "/".toList by decide]
  exact serve_live c now

theorem connHandler_contentLength_iff_json :
    (∀ v ∈ sampleCache.current_sample.values ++ sampleCache.average.values, |v| < 2 ^ 128) ∧
      (-2 ^ 63 ≤ (1700000000 : ℤ) ∧ (1700000000 : ℤ) < 2 ^ 63) ∧
      ∃ head body, connHandler sampleCache 1700000000 "GET /json HTTP/1.1\r\n\r\n".toList =
        .finite head body ∧
        (contentLength head = some (body.length : ℤ) ↔
          (parseRequest "GET /json HTTP/1.1\r\n\r\n".toList = some "/json".toList →
            (jsonBody sampleCache.current_sample sampleCache.average 1700000000).length ≤ 511)) :=
  have hc : ∀ v ∈ sampleCache.current_sample.values ++ sampleCache.average.values,
      |v| < 2 ^ 128 := fun v hv => (sampleCache_small v hv).trans (by norm_num)
  have hn : -2 ^ 63 ≤ (1700000000 : ℤ) ∧ (1700000000 : ℤ) < 2 ^ 63 := by decide
  have hL := jsonBody_length_le (fun v hv => sampleCache_small v (List.mem_append_left _ hv))
    (fun v hv => sampleCache_small v (List.mem_append_right _ hv)) hn
  have h := connHandler_getJson sampleCache 1700000000 (by omega)
  ⟨hc, hn, _, _, h, connHandler_contentLength_iff _ _ _ hc hn h⟩

theorem contentLength_of_jsonBody_le {c : CachedData} {now : ℤ} {delivered head body : List Char}
    (hL : (jsonBody c.current_sample c.average now).length ≤ 511)
    (h : connHandler c now delivered = .finite head body) :
    contentLength head = some (body.length : ℤ) := by
  rcases connHandler_finite_cases (by omega) h with ⟨-, hcl⟩ | ⟨-, hcl, rfl⟩
  · exact hcl
  · rw [hcl, List.take_of_length_le hL]

/-- With every value under `10^16` in magnitude,
every finite response announces the number of body bytes it sends. -/
theorem connHandler_contentLength (c : CachedData) (now : ℤ) (delivered : List Char)
    (hc : ∀ v ∈ c.current_sample.values ++ c.average.values, |v| < 10 ^ 16)
    (hnow : -2 ^ 63 ≤ now ∧ now < 2 ^ 63) {head body : List Char}
    (h : connHandler c now delivered = .finite head body) :
    contentLength head = some (body.length : ℤ) := by
  have hL := jsonBody_length_le (fun v hv => hc v (List.mem_append_left _ hv))
    (fun v hv => hc v (List.mem_append_right _ hv)) hnow
  exact contentLength_of_jsonBody_le (by omega) h

theorem connHandler_contentLength_json :
    (∀ v ∈ sampleCache.current_sample.values ++ sampleCache.average.values, |v| < 10 ^ 16) ∧
      (-2 ^ 63 ≤ (1700000000 : ℤ) ∧ (1700000000 : ℤ) < 2 ^ 63) ∧
      ∃ head body, connHandler sampleCache 1700000000 "GET /json HTTP/1.1\r\n\r\n".toList =
        .finite head body ∧ contentLength head = some (body.length : ℤ) :=
  have hn : -2 ^ 63 ≤ (1700000000 : ℤ) ∧ (1700000000 : ℤ) < 2 ^ 63 := by decide
  have hL := jsonBody_length_le (fun v hv => sampleCache_small v (List.mem_append_left _ hv))
    (fun v hv => sampleCache_small v (List.mem_append_right _ hv)) hn
  have h := connHandler_getJson sampleCache 1700000000 (by omega)
  ⟨sampleCache_small, hn, _, _, h, connHandler_contentLength _ _ _ sampleCache_small hn h⟩

/-! ### What the producer can publish -/

theorem contentLength_of_within {c : CachedData} (hs : c.current_sample.Within deviceBound)
    (ha : c.average.Within deviceBound) {now : ℤ} (hnow : -2 ^ 63 ≤ now ∧ now < 2 ^ 63)
    {delivered head body : List Char} (h : connHandler c now delivered = .finite head body) :
    contentLength head = some (body.length : ℤ) := by
  have hB : deviceBound < 10 ^ 16 := by norm_num [deviceBound]
  have hL := jsonBody_length_le (fun v hv => (hs v hv).trans_lt hB)
    (fun v hv => (ha v hv).trans_lt hB) hnow
  exact contentLength_of_jsonBody_le (by omega) h

/-- Over every run of the producer on whole records of `/dev/mpu6050`, with the
pair `data_reader_thread` copies out of the segment published into the cache,
every finite response announces the number of body bytes it sends: the values
the device prints are far below the magnitude at which the `/json` body outgrows
`char body[512]`. The reader's `current_sample` read, whose field the producer's
`shared_data_t` in src/ does not declare, is assumed to return the zeroed
sample, a buffer slot or the average. -/
theorem connHandler_contentLength_deviceRecords (currentSample : SharedData → Sample)
    (hcur : ∀ d, currentSample d = 0 ∨ (∃ j, currentSample d = d.buffer j) ∨
      currentSample d = d.average)
    (rs : List DeviceRead) (hrs : ∀ r ∈ rs, r.IsRecord) (c : CachedData) (now : ℤ)
    (hnow : -2 ^ 63 ≤ now ∧ now < 2 ^ 63) (delivered : List Char) {head body : List Char}
    (h : connHandler (c.publish (readerCopy currentSample (producerRun rs)).1
      (readerCopy currentSample (producerRun rs)).2) now delivered = .finite head body) :
    contentLength head = some (body.length : ℤ) := by
  have hd := producerRun_within rs hrs
  have hs : (currentSample (producerRun rs)).Within deviceBound := by
    rcases hcur (producerRun rs) with h0 | ⟨j, hj⟩ | ha
    · rw [h0]; exact Sample.within_zero (by norm_num [deviceBound])
    · rw [hj]; exact hd.buffer j
    · rw [ha]; exact hd.average
  exact contentLength_of_within hs (hd.buffer _) hnow h

def restingFixed : FixedSample :=
  ⟨⟨-12, by decide⟩, ⟨981, by decide⟩, ⟨9806, by decide⟩, ⟨1500, by decide⟩, ⟨-2250, by decide⟩,
    ⟨125, by decide⟩, ⟨36530, by decide⟩⟩

/-- One record of `restingFixed`, with the IRQ count `7`. -/
def restingRun : List DeviceRead :=
  [.opened (devRead 7 (some (⟨0, 0, 0, 0, 0, 0, 0⟩, restingFixed)))]

theorem connHandler_contentLength_deviceRecords_json :
    (∀ d : SharedData, d.average = 0 ∨ (∃ j, d.average = d.buffer j) ∨ d.average = d.average) ∧
      (∀ r ∈ restingRun, r.IsRecord) ∧ (-2 ^ 63 ≤ (1700000000 : ℤ) ∧ (1700000000 : ℤ) < 2 ^ 63) ∧
      ∃ head body, connHandler (CachedData.init.publish
          (readerCopy SharedData.average (producerRun restingRun)).1
          (readerCopy SharedData.average (producerRun restingRun)).2)
          1700000000 "GET /json HTTP/1.1\r\n\r\n".toList = .finite head body ∧
        contentLength head = some (body.length : ℤ) := by
  have hcur : ∀ d : SharedData, d.average = 0 ∨ (∃ j, d.average = d.buffer j) ∨
      d.average = d.average := fun _ => .inr (.inr rfl)
  have hrs : ∀ r ∈ restingRun, r.IsRecord := by
    intro r hr
    rw [restingRun, List.mem_singleton] at hr
    exact hr ▸ ⟨7, _, rfl⟩
  have hn : -2 ^ 63 ≤ (1700000000 : ℤ) ∧ (1700000000 : ℤ) < 2 ^ 63 := by decide
  exact ⟨hcur, hrs, hn, _, _, rfl,
    connHandler_contentLength_deviceRecords _ hcur _ hrs .init _ hn
      "GET /json HTTP/1.1\r\n\r\n".toList rfl⟩

/-! ### The request line -/

/-- A token that `%Ns` reads whole from the request string: not empty, at most
`width` bytes, with no white space and no NUL. -/
structure FitsWord (width : ℕ) (w : List Char) : Prop where
  ne_nil : w ≠ []
  length_le : w.length ≤ width
  not_space : ∀ c ∈ w, isSpace c = false
  not_nul : ∀ c ∈ w, c ≠ '\x00'

namespace FitsWord

variable {width : ℕ} {w : List Char} (h : FitsWord width w)
include h

theorem skipSpace_append (t : List Char) : skipSpace (w ++ t) = w ++ t := by
  obtain ⟨c, cs, rfl⟩ := List.exists_cons_of_ne_nil h.ne_nil
  simp [skipSpace, h.not_space c (.head _)]

theorem scanWord_append {t : List Char} (ht : ∀ a r, t = a :: r → isSpace a = true) :
    scanWord width (w ++ t) = some (w, t) := by
  have hw : (w ++ t).takeWhile (fun c => !isSpace c) = w := by
    rw [List.takeWhile_append_of_pos (fun c hc => by simp [h.not_space c hc])]
    cases t with
    | nil => simp
    | cons a r => simp [ht a r rfl]
  simp [scanWord, hw, List.take_of_length_le h.length_le, h.ne_nil]

end FitsWord

theorem scanf_requestLine {m p v t : List Char} (hm : FitsWord 15 m) (hp : FitsWord 255 p)
    (hv : FitsWord 15 v) (ht : ∀ a r, t = a :: r → isSpace a = true) :
    scanf requestLineFormat (m ++ ' ' :: (p ++ ' ' :: (v ++ t))) =
      ([.str m, .str p, .str v], t) := by
  have hb : ∀ x a r, (' ' :: x : List Char) = a :: r → isSpace a = true := by
    rintro x a r ⟨⟩
    rfl
  simp only [requestLineFormat, scanf, hm.skipSpace_append, hm.scanWord_append (hb _),
    skipSpace_blank, hp.skipSpace_append, hp.scanWord_append (hb _), hv.skipSpace_append,
    hv.scanWord_append ht]

theorem requestString_requestLine {m p v : List Char} (rest : List Char) (hm : FitsWord 15 m)
    (hp : FitsWord 255 p) (hv : FitsWord 15 v) (hlen : m.length + p.length + v.length + 2 ≤ 1023) :
    ∃ t, requestString (m ++ ' ' :: (p ++ ' ' :: (v ++ '\r' :: '\n' :: rest))) =
      m ++ ' ' :: (p ++ ' ' :: (v ++ t)) ∧ t <+: '\r' :: '\n' :: rest := by
  have hline : (m ++ ' ' :: (p ++ ' ' :: v)).length ≤ 1023 := by simp; omega
  have hnul : ∀ c ∈ m ++ ' ' :: (p ++ ' ' :: v), (c != '\x00') = true := by
    intro c hc
    simp only [List.mem_append, List.mem_cons] at hc
    rcases hc with hc | rfl | hc | rfl | hc
    · simpa using hm.not_nul c hc
    · rfl
    · simpa using hp.not_nul c hc
    · rfl
    · simpa using hv.not_nul c hc
  refine ⟨((('\r' :: '\n' :: rest).take (1023 - (m ++ ' ' :: (p ++ ' ' :: v)).length)).takeWhile
    (· != '\x00')), ?_, (List.takeWhile_prefix _).trans (List.take_prefix _ _)⟩
  have hsplit : m ++ ' ' :: (p ++ ' ' :: (v ++ '\r' :: '\n' :: rest)) =
      (m ++ ' ' :: (p ++ ' ' :: v)) ++ '\r' :: '\n' :: rest := by simp
  rw [requestString, hsplit, List.take_append_eq_append_take, List.take_of_length_le hline,
    List.takeWhile_append_of_pos hnul]
  simp

/-- Within the widths, `conn_handler` routes by the request's path: a method and
a version of at most 15 bytes, a path of at most 255, none of them with white
space or NUL, and the line up to the version within the 1023 bytes `recv` stores. -/
theorem connHandler_requestLine (c : CachedData) (now : ℤ) {m p v : List Char}
    (rest : List Char) (hm : FitsWord 15 m) (hp : FitsWord 255 p) (hv : FitsWord 15 v)
    (hlen : m.length + p.length + v.length + 2 ≤ 1023) :
    connHandler c now (m ++ ' ' :: (p ++ ' ' :: (v ++ '\r' :: '\n' :: rest))) =
      serve c now (route p) := by
  obtain ⟨t, hs, ht⟩ := requestString_requestLine rest hm hp hv hlen
  have hsp : ∀ a r, t = a :: r → isSpace a = true := by
    rintro a r rfl
    obtain ⟨rfl, -⟩ := List.cons_prefix_cons.1 ht
    rfl
  have hne : m ++ ' ' :: (p ++ ' ' :: (v ++ '\r' :: '\n' :: rest)) ≠ [] := by simp
  simp only [connHandler, parseRequest, hne, if_false, hs, scanf_requestLine hm hp hv hsp]

theorem connHandler_requestLine_get :
    FitsWord 15 "GET".toList ∧ FitsWord 255 "/json".toList ∧ FitsWord 15 "HTTP/1.1".toList ∧
    "GET".toList.length + "/json".toList.length + "HTTP/1.1".toList.length + 2 ≤ 1023 ∧
    connHandler CachedData.init 0 ("GET".toList ++ ' ' :: ("/json".toList ++ ' ' ::
      ("HTTP/1.1".toList ++ '\r' :: '\n' :: "Host: pi\r\n\r\n".toList))) =
      serve CachedData.init 0 (route "/json".toList) :=
  have hm : FitsWord 15 "GET".toList := ⟨by decide, by decide, by decide, by decide⟩
  have hp : FitsWord 255 "/json".toList := ⟨by decide, by decide, by decide, by decide⟩
  have hv : FitsWord 15 "HTTP/1.1".toList := ⟨by decide, by decide, by decide, by decide⟩
  have hlen : "GET".toList.length + "/json".toList.length + "HTTP/1.1".toList.length + 2 ≤
      1023 := by decide
  ⟨hm, hp, hv, hlen, connHandler_requestLine _ _ _ hm hp hv hlen⟩

theorem finiteResponse_cons (head : ℤ → List Char) (ch : Char) (rest : List Char) :
    ∃ h r, finiteResponse head (ch :: rest) = .finite h (ch :: r) := by
  obtain ⟨k, hk⟩ : ∃ k, clampLen 512 ((ch :: rest).length : ℤ) = k + 1 := by
    refine ⟨clampLen 512 ((ch :: rest).length : ℤ) - 1, ?_⟩
    simp only [clampLen, List.length_cons, Int.toNat_natCast]
    split_ifs <;> omega
  simp only [finiteResponse, snprintf, hk]
  exact ⟨_, _, rfl⟩

/-- A method of 16 bytes before the path `/json`. -/
def longMethodRequest : List Char := "ABCDEFGHIJKLMNO/ /json HTTP/1.1\r\n\r\n".toList

/-- The request line `M SP P SP V CRLF` with `M = ABCDEFGHIJKLMNO/`, `P = /json`
and `V = HTTP/1.1`: `%15s` takes the first 15 bytes of `M`, `%255s` its last
byte `/`, and `%15s` the path. `conn_handler` serves the live page, which differs
from the JSON snapshot. -/
theorem connHandler_longMethod (c : CachedData) (now : ℤ) :
    longMethodRequest = "ABCDEFGHIJKLMNO/".toList ++ ' ' :: ("/json".toList ++ ' ' ::
      ("HTTP/1.1".toList ++ '\r' :: '\n' :: "\r\n".toList)) ∧
    (∀ ch ∈ "ABCDEFGHIJKLMNO/".toList ++ "/json".toList ++ "HTTP/1.1".toList,
      isSpace ch = false) ∧
    parseRequest longMethodRequest = some "/".toList ∧
    connHandler c now longMethodRequest = serve c now .live ∧
    serve c now .live ≠ serve c now .json := by
  have hp : parseRequest longMethodRequest = some "/".toList := by decide
  refine ⟨rfl, by decide, hp, by rw [connHandler, hp]; rfl, fun heq => ?_⟩
  obtain ⟨r, hr⟩ : ∃ r, jsonBody c.current_sample c.average now = '\x7b' :: r := ⟨_, rfl⟩
  obtain ⟨hj, rj, hj'⟩ := finiteResponse_cons jsonHead '\x7b' r
  obtain ⟨l, hl⟩ : ∃ l, livePage = '<' :: l := ⟨_, rfl⟩
  have hjson : serve c now .json = .finite hj ('\x7b' :: rj) := by
    show finiteResponse jsonHead (jsonBody c.current_sample c.average now) = _
    rw [hr, hj']
  rw [serve_live, hjson, hl] at heq
  simp only [Response.finite.injEq, List.cons.injEq] at heq
  exact absurd heq.2.1 (by decide)

/-! ### The frames of `/events`

Both servers render a frame the same way: the JSON text into `char json[n]`,
then `"data: %.*s\n\n"` with precision `jlen` into `char event[m]`. -/

/-- A frame of `conn_handler`'s `/events` loop from the JSON text it renders,
with `json` and `event` of `jsonSize` and `eventSize` bytes: what `event` holds
and `elen`, the count passed to `send`. -/
def sseFrame (jsonSize eventSize : ℕ) (text : List Char) : List Char × ℤ :=
  let (json, jlen) := snprintf jsonSize text
  snprintf eventSize ("data: ".toList ++ json.take jlen.toNat ++ "\n\n".toList)

/-- When `event` has room for all that `json` can hold, the frame holds the
text cut to `jsonSize - 1` bytes, and `send` is given exactly its length. -/
theorem sseFrame_eq {jsonSize eventSize : ℕ} (hj : 0 < jsonSize) (h : jsonSize + 8 ≤ eventSize)
    (text : List Char) :
    sseFrame jsonSize eventSize text =
      ("data: ".toList ++ text.take (jsonSize - 1) ++ "\n\n".toList,
        ((min text.length (jsonSize - 1) + 8 : ℕ) : ℤ)) := by
  have ht : (text.take (jsonSize - 1)).take text.length = text.take (jsonSize - 1) :=
    List.take_of_length_le (by simp)
  have hlen : ("data: ".toList ++ text.take (jsonSize - 1) ++ "\n\n".toList).length =
      min text.length (jsonSize - 1) + 8 := by
    simp only [List.length_append, List.length_take, show "data: ".toList.length = 6 from rfl,
      show "\n\n".toList.length = 2 from rfl]
    omega
  rw [sseFrame, snprintf]
  dsimp only
  rw [Int.toNat_natCast, ht, snprintf, hlen, List.take_of_length_le (by rw [hlen]; omega)]

/-- The frame the `/events` loop sends for a new pair, lines 407-422: the `/json`
text rendered into `char json[1024]`, then `"data: %.*s\n\n"` with precision
`jlen` into `char event[1152]`. It gives what `event` holds and `elen`, the count
passed to `send`; `%.*s` stops at the end of the string `json` holds. -/
def sseEvent (sample avg : Sample) (now : ℤ) : List Char × ℤ :=
  let (json, jlen) := snprintf 1024 (jsonBody sample avg now)
  snprintf 1152 ("data: ".toList ++ json.take jlen.toNat ++ "\n\n".toList)

theorem sseEvent_eq_sseFrame (sample avg : Sample) (now : ℤ) :
    sseEvent sample avg now = sseFrame 1024 1152 (jsonBody sample avg now) := rfl

/-- For every pair of float samples and every `long` time, the frame holds the
whole JSON text `/json` renders for the pair, and `send` is given exactly its
length: no frame is cut, and none reads past the end of `event`. -/
theorem sseEvent_whole (sample avg : Sample) (now : ℤ)
    (hc : ∀ v ∈ sample.values ++ avg.values, |v| < 2 ^ 128)
    (hnow : -2 ^ 63 ≤ now ∧ now < 2 ^ 63) :
    sseEvent sample avg now = ("data: ".toList ++ jsonBody sample avg now ++ "\n\n".toList,
      (((jsonBody sample avg now).length + 8 : ℕ) : ℤ)) := by
  have hf : ∀ v ∈ sample.values ++ avg.values, |v| < 10 ^ 39 :=
    fun v hv => (hc v hv).trans (by norm_num)
  have hL := jsonBody_length_le (fun v hv => hf v (List.mem_append_left _ hv))
    (fun v hv => hf v (List.mem_append_right _ hv)) hnow
  rw [sseEvent_eq_sseFrame, sseFrame_eq (by decide) (by decide),
    List.take_of_length_le (by omega), min_eq_left (by omega)]

theorem sseEvent_whole_sampleCache :
    (∀ v ∈ sampleCache.current_sample.values ++ sampleCache.average.values, |v| < 2 ^ 128) ∧
      (-2 ^ 63 ≤ (1700000000 : ℤ) ∧ (1700000000 : ℤ) < 2 ^ 63) ∧
      sseEvent sampleCache.current_sample sampleCache.average 1700000000 =
        ("data: ".toList ++ jsonBody sampleCache.current_sample sampleCache.average 1700000000 ++
          "\n\n".toList, (((jsonBody sampleCache.current_sample sampleCache.average
            1700000000).length + 8 : ℕ) : ℤ)) :=
  have hc : ∀ v ∈ sampleCache.current_sample.values ++ sampleCache.average.values,
      |v| < 2 ^ 128 := fun v hv => (sampleCache_small v hv).trans (by norm_num)
  have hn : -2 ^ 63 ≤ (1700000000 : ℤ) ∧ (1700000000 : ℤ) < 2 ^ 63 := by decide
  ⟨hc, hn, sseEvent_whole _ _ _ hc hn⟩

end HwDrivers
