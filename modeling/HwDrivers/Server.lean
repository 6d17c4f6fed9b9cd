import HwDrivers.ConnHandler

/-! `conn_handler` of the first server, `server_for_mpu6050/c_server/server.c`
(lines 136-339): the same `recv`, request line, routing, pages, headers and
clamps as the cache server's, and a `/json` body that holds only the average,
copied from the shared segment. -/

namespace HwDrivers

namespace Server

/-- The `/json` body, lines 203-218, with `%f` of each value of the average and
the seconds of `time(NULL)`. -/
def jsonBody (avg : Sample) (timestamp : ℤ) : List Char :=
  "\x7b\n  \"status\": \"ok\",\n  \"ax\": ".toList ++ fixed6 avg.ax ++
    ",\n  \"ay\": ".toList ++ fixed6 avg.ay ++ ",\n  \"az\": ".toList ++ fixed6 avg.az ++
    ",\n  \"gx\": ".toList ++ fixed6 avg.gx ++ ",\n  \"gy\": ".toList ++ fixed6 avg.gy ++
    ",\n  \"gz\": ".toList ++ fixed6 avg.gz ++ ",\n  \"temp\": ".toList ++ fixed6 avg.temp ++
    ",\n  \"timestamp\": ".toList ++ padded 0 timestamp ++ "\n\x7d\n".toList

/-- What each route sends, given the average the handler copied and the time. -/
def serve (avg : Sample) (now : ℤ) : Route → Response
  | .live => finiteResponse liveHead livePage
  | .json => finiteResponse jsonHead (jsonBody avg now)
  | .events => .events
  | .notFound => finiteResponse notFoundHead notFoundPage

/-- `conn_handler` on the bytes one `recv` delivers: `local_avg` is the
segment's `average` when the segment is mapped, `{0}` when it is not. -/
def connHandler (shared : Option SharedData) (now : ℤ) (delivered : List Char) : Response :=
  match parseRequest delivered with
  | none => .closed
  | some path => serve (shared.elim 0 SharedData.average) now (route path)

theorem jsonBody_length (avg : Sample) (timestamp : ℤ) :
    (jsonBody avg timestamp).length = 110 + (fixed6 avg.ax).length + (fixed6 avg.ay).length +
      (fixed6 avg.az).length + (fixed6 avg.gx).length + (fixed6 avg.gy).length +
      (fixed6 avg.gz).length + (fixed6 avg.temp).length + (padded 0 timestamp).length := by
  simp only [jsonBody, List.length_append,
    show "\x7b\n  \"status\": \"ok\",\n  \"ax\": ".toList.length = 28 from rfl,
    show ",\n  \"ay\": ".toList.length = 10 from rfl, show ",\n  \"az\": ".toList.length = 10 from rfl,
    show ",\n  \"gx\": ".toList.length = 10 from rfl, show ",\n  \"gy\": ".toList.length = 10 from rfl,
    show ",\n  \"gz\": ".toList.length = 10 from rfl,
    show ",\n  \"temp\": ".toList.length = 12 from rfl,
    show ",\n  \"timestamp\": ".toList.length = 17 from rfl,
    show "\n\x7d\n".toList.length = 3 from rfl]
  omega

theorem jsonBody_length_le {avg : Sample} (h : ∀ v ∈ avg.values, |v| < 2 ^ 128) {now : ℤ}
    (hnow : -2 ^ 63 ≤ now ∧ now < 2 ^ 63) : (jsonBody avg now).length ≤ 466 := by
  have hv : ∀ v ∈ avg.values, (fixed6 v).length ≤ 39 + 9 :=
    fun v hv => fixed6_length_le ((h v hv).trans (by norm_num))
  simp only [Sample.values, List.mem_cons, List.mem_singleton, List.not_mem_nil, or_false,
    forall_eq_or_imp, forall_eq] at hv
  have ht := @padded_length_le 0 19 now (by omega) (by decide)
  simp only [Nat.zero_max] at ht
  rw [jsonBody_length]
  omega

theorem finiteResponse_contentLength {head : ℤ → List Char} {text : List Char}
    (hc : ∀ n : ℕ, contentLength (head n) = some n) (hh : (head text.length).length < 256)
    (ht : text.length ≤ 511) {h b : List Char} (hr : finiteResponse head text = .finite h b) :
    contentLength h = some (b.length : ℤ) := by
  rw [finiteResponse_eq hh, List.take_of_length_le ht] at hr
  obtain ⟨rfl, rfl⟩ := Response.finite.inj hr
  exact hc _

/-- Over every state of the shared segment whose average is floats, every `long`
time and every request, every finite response of `server.c` announces exactly
the body bytes it sends: its `/json` body always fits `char body[512]`. -/
theorem connHandler_announcesBody (shared : Option SharedData) (now : ℤ) (delivered : List Char)
    (hs : ∀ d, shared = some d → ∀ v ∈ d.average.values, |v| < 2 ^ 128)
    (hnow : -2 ^ 63 ≤ now ∧ now < 2 ^ 63) {head body : List Char}
    (h : connHandler shared now delivered = .finite head body) :
    contentLength head = some (body.length : ℤ) := by
  have havg : ∀ v ∈ (shared.elim 0 SharedData.average).values, |v| < 2 ^ 128 := by
    rcases shared with _ | d
    · simp [Sample.values]
    · exact hs d rfl
  have hL := jsonBody_length_le havg hnow
  rcases hp : parseRequest delivered with _ | path
  · simp only [connHandler, hp] at h
    cases h
  simp only [connHandler, hp] at h
  rcases hr : route path with _ | _ | _ | _ <;> rw [hr, serve] at h
  · exact finiteResponse_contentLength contentLength_liveHead
      (headText_length_lt (by decide) (by rw [livePage_length]; decide))
      (by rw [livePage_length]; decide) h
  · exact finiteResponse_contentLength contentLength_jsonHead
      (headText_length_lt (by decide) (by omega)) (by omega) h
  · cases h
  · exact finiteResponse_contentLength contentLength_notFoundHead
      (headText_length_lt (by decide) (by rw [notFoundPage_length]; decide))
      (by rw [notFoundPage_length]; decide) h

def oneSampleSegment : SharedData :=
  ⟨fun _ => sampleCache.current_sample, sampleCache.current_sample, 1, ⟨1, by decide⟩, by decide⟩

theorem connHandler_announcesBody_json :
    (∀ d, some oneSampleSegment = some d → ∀ v ∈ d.average.values, |v| < 2 ^ 128) ∧
      (-2 ^ 63 ≤ (1700000000 : ℤ) ∧ (1700000000 : ℤ) < 2 ^ 63) ∧
      ∃ head body, connHandler (some oneSampleSegment) 1700000000
          "GET /json HTTP/1.1\r\n\r\n".toList = .finite head body ∧
        contentLength head = some (body.length : ℤ) := by
  have hs : ∀ d, some oneSampleSegment = some d → ∀ v ∈ d.average.values, |v| < 2 ^ 128 := by
    rintro d ⟨⟩ v hv
    exact (sampleCache_small v (List.mem_append_left _ hv)).trans (by norm_num)
  have hn : -2 ^ 63 ≤ (1700000000 : ℤ) ∧ (1700000000 : ℤ) < 2 ^ 63 := by decide
  exact ⟨hs, hn, _, _, rfl,
    connHandler_announcesBody _ _ "GET /json HTTP/1.1\r\n\r\n".toList hs hn rfl⟩

/-! ### The `/events` frames -/

/-- The JSON text of a frame of `server.c`, lines 277-287: the average with
`%.6f` and the seconds of `time(NULL)`. -/
def compactJson (avg : Sample) (timestamp : ℤ) : List Char :=
  "\x7b\"status\":\"ok\",".toList ++ jsonGroup avg ++ ",\"timestamp\":".toList ++
    padded 0 timestamp ++ ['\x7d']

/-- A frame of `server.c`'s `/events` loop, lines 277-288: `char json[256]` and
`char event[320]`. -/
def sseEvent (avg : Sample) (now : ℤ) : List Char × ℤ := sseFrame 256 320 (compactJson avg now)

theorem compactJson_length (avg : Sample) (timestamp : ℤ) :
    (compactJson avg timestamp).length = 29 + (jsonGroup avg).length + (padded 0 timestamp).length := by
  simp only [compactJson, List.length_append, List.length_singleton,
    show "\x7b\"status\":\"ok\",".toList.length = 15 from rfl,
    show ",\"timestamp\":".toList.length = 13 from rfl]
  omega

/-- For every average and every time, a frame of `server.c` never overruns
`event[320]` and `send` is given exactly the bytes it holds; its JSON is what
`json[256]` holds, the text cut to 255 bytes. -/
theorem sseEvent_frame (avg : Sample) (now : ℤ) :
    sseEvent avg now = ("data: ".toList ++ (compactJson avg now).take 255 ++ "\n\n".toList,
      ((min (compactJson avg now).length 255 + 8 : ℕ) : ℤ)) :=
  sseFrame_eq (by decide) (by decide) _

/-- Every value `2^100`, a float: the text takes 339 bytes, so the frame ends
before the closing brace. -/
example : (compactJson ⟨2 ^ 100, 2 ^ 100, 2 ^ 100, 2 ^ 100, 2 ^ 100, 2 ^ 100, 2 ^ 100⟩ 0).length =
    339 := by
  have hv : fixed6 (2 ^ 100) = Nat.toDigits 10 (2 ^ 100) ++ ".000000".toList := by
    rw [← fixed6_natCast]
    norm_num
  have hd : (Nat.toDigits 10 (2 ^ 100)).length = 31 := by decide
  rw [compactJson_length, jsonGroup_length]
  simp only [hv, List.length_append, hd]
  rfl

/-- With every value of the average below `10^14` in magnitude and a `long`
time, a frame of `server.c` holds the whole JSON text. -/
theorem sseEvent_holdsJson {avg : Sample} (hv : ∀ v ∈ avg.values, |v| < 10 ^ 14) {now : ℤ}
    (hnow : -2 ^ 63 ≤ now ∧ now < 2 ^ 63) :
    sseEvent avg now = ("data: ".toList ++ compactJson avg now ++ "\n\n".toList,
      (((compactJson avg now).length + 8 : ℕ) : ℤ)) := by
  have hg := jsonGroup_length_le hv
  have ht := @padded_length_le 0 19 now (by omega) (by decide)
  simp only [Nat.zero_max] at ht
  have hL : (compactJson avg now).length ≤ 255 := by rw [compactJson_length]; omega
  rw [sseEvent, sseFrame_eq (by decide) (by decide), List.take_of_length_le hL, min_eq_left hL]

theorem sseEvent_holdsJson_sampleCache :
    (∀ v ∈ sampleCache.average.values, |v| < 10 ^ 14) ∧
      (-2 ^ 63 ≤ (1700000000 : ℤ) ∧ (1700000000 : ℤ) < 2 ^ 63) ∧
      sseEvent sampleCache.average 1700000000 =
        ("data: ".toList ++ compactJson sampleCache.average 1700000000 ++ "\n\n".toList,
          (((compactJson sampleCache.average 1700000000).length + 8 : ℕ) : ℤ)) :=
  have hv : ∀ v ∈ sampleCache.average.values, |v| < 10 ^ 14 := by
    simp only [sampleCache, Sample.values, List.mem_cons, List.mem_singleton, List.not_mem_nil,
      or_false, forall_eq_or_imp, forall_eq]
    norm_num [abs_lt]
  have hn : -2 ^ 63 ≤ (1700000000 : ℤ) ∧ (1700000000 : ℤ) < 2 ^ 63 := by decide
  ⟨hv, hn, sseEvent_holdsJson hv hn⟩

end Server

end HwDrivers
