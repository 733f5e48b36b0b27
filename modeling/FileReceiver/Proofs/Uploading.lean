/-
# What is accepted and what can be sent

A manifest names its session and its files in strings of a document, which
may hold any text. A chunk names its session in a header, which is used only
if it is ASCII without control characters, and its file in a segment of the
path, which must not be empty. So a session can be opened to which no chunk
finds its way, and a file can be accepted that no chunk can name. Every other
file is reached by each of its chunks, as long as the session lasts
(`uploads_reach_iff`).

Key definitions: `Http.Request.Uploads`, `Receiver.Reports`.
Key theorems: `Http.Route.ofPath?_upload`, `Http.Request.headerText?_id`,
`Http.respond_upload`, `Receiver.uploads_reach_iff`.
-/
import FileReceiver.Proofs.Encoding
import FileReceiver.Proofs.Records

namespace FileReceiver

namespace Http

/-- What stands before the id in the target of a chunk. -/
def uploadFront : List Char :=
  "/api/v1/file_data".toList

/-- The target of the chunks of a file. -/
def uploadTarget (fileId : String) : String :=
  String.ofList (uploadFront ++ '/' :: Percent.encode fileId.toUTF8.toList)

/-- A request brings a chunk of a file of a session. -/
structure Request.Uploads (q : Request) (sessionId fileId : String) : Prop where
  method : q.method = "POST"
  target : q.target = uploadTarget fileId
  session : q.header? sessionHeader = some sessionId.toUTF8
  /-- A length that is declared is that of the chunk. -/
  length : ∀ n, q.declaredLength? = some n → n = q.body.size

/-- The bytes that the value of a header may hold. -/
def isHeaderByte (b : UInt8) : Bool :=
  b == 9 || (0x20 ≤ b && b != 0x7F)

/-- The id can be read from a header. -/
def isHeaderId (id : String) : Bool :=
  id.toUTF8.toList.all isHeaderText

variable {q : Request} {sessionId fileId : String} {limit : Nat} {r : Receiver}

theorem isHeaderText_lt {b : UInt8} (h : isHeaderText b = true) : b.toNat < 128 := by
  simp only [isHeaderText, Bool.or_eq_true, Bool.and_eq_true, beq_iff_eq, decide_eq_true_eq] at h
  rcases h with rfl | ⟨-, hlast⟩
  · decide
  · exact Nat.lt_of_le_of_lt (UInt8.le_iff_toNat_le.mp hlast) (by decide)

/-- An id comes through a header, or nothing does. -/
theorem Request.headerText?_id {name : String} (h : q.header? name = some sessionId.toUTF8) :
    q.headerText? name = if isHeaderId sessionId then some sessionId else none := by
  unfold headerText? isHeaderId
  rw [h]
  dsimp only
  split
  · rename_i hall
    rw [Text.ofList_bytes fun b hb => isHeaderText_lt (List.all_eq_true.mp hall b hb)]
  · rfl

/-- The path of a target that holds neither a query nor a fragment. -/
theorem Request.path_eq (hroot : q.target.toList.head? = some '/')
    (hplain : ∀ c ∈ q.target.toList, c ≠ '?' ∧ c ≠ '#') : q.path = q.target := by
  have hall : ∀ c ∈ q.target.toList, (c != '?' && c != '#') = true := fun c hc => by
    simpa using hplain c hc
  have hwhole : q.target.toList.takeWhile (fun c => c != '?' && c != '#') = q.target.toList := by
    rw [← List.append_nil q.target.toList, List.takeWhile_append_of_pos hall, List.takeWhile_nil]
  unfold path
  simp only [hroot, if_true]
  rw [hwhole, String.ofList_toList]

theorem toList_uploadTarget (fileId : String) : (uploadTarget fileId).toList =
    uploadFront ++ '/' :: Percent.encode fileId.toUTF8.toList :=
  String.toList_ofList

theorem Request.Uploads.path (h : q.Uploads sessionId fileId) : q.path = uploadTarget fileId := by
  rw [← h.target]
  apply Request.path_eq
  · rw [h.target, toList_uploadTarget]
    have hhead : uploadFront.head? = some '/' := by decide
    rw [List.head?_append, hhead, Option.some_or]
  · intro c hc
    rw [h.target, toList_uploadTarget] at hc
    have hfront : uploadFront.all (fun c => c ≠ '?' ∧ c ≠ '#') = true := by decide
    rcases List.mem_append.mp hc with hc | hc
    · exact of_decide_eq_true (List.all_eq_true.mp hfront c hc)
    rcases List.mem_cons.mp hc with rfl | hc
    · decide
    · have hplain := (Percent.encode_plain c hc).2
      simp only [List.mem_cons, not_or] at hplain
      exact ⟨hplain.2.1, hplain.2.2.1⟩

/-- The route of a target of chunks. -/
theorem Route.ofPath?_upload (fileId : String) :
    ofPath? (uploadTarget fileId) =
      if fileId = "" then none
      else some (.fileData (String.ofList (Percent.encode fileId.toUTF8.toList))) := by
  have hsegment : '/' ∉ Percent.encode fileId.toUTF8.toList := fun hmem =>
    (Percent.encode_plain _ hmem).2 (by decide)
  have hfront : (Path.pieces uploadFront).map String.ofList = ["", "api", "v1", "file_data"] := by
    decide
  have hpieces : (Path.pieces (uploadTarget fileId).toList).map String.ofList =
      ["", "api", "v1", "file_data", String.ofList (Percent.encode fileId.toUTF8.toList)] := by
    rw [toList_uploadTarget, Path.pieces, Text.pieces_append, Text.pieces_of_not_mem hsegment,
      List.map_append, ← Path.pieces, hfront]
    rfl
  have hempty : String.ofList (Percent.encode fileId.toUTF8.toList) = "" ↔ fileId = "" := by
    rw [← String.toList_inj, String.toList_ofList, String.toList_empty, Percent.encode_eq_nil,
      Text.bytes_eq_nil]
  unfold ofPath?
  rw [hpieces]
  simp only [hempty]

/-- The answer to a chunk that is reported on. -/
def chunkAnswer (report : ChunkReport) : Answer :=
  ⟨if report.result.status = .failed then 500 else 200, .json report.toValue⟩

theorem fileData_ok {id : Option String} {bytes : ByteArray} {report : ChunkReport} {r' : Receiver}
    (h : r.writeChunk id fileId bytes = (.ok report, r')) :
    fileData r id fileId bytes = (chunkAnswer report, r') := by
  rw [fileData, h]
  rfl

theorem fileData_error {id : Option String} {bytes : ByteArray} {e : Refusal}
    (h : (r.writeChunk id fileId bytes).1 = .error e) :
    fileData r id fileId bytes = (refusalAnswer e, r) := by
  have hw : r.writeChunk id fileId bytes = (.error e, (r.writeChunk id fileId bytes).2) := by
    rw [← h]
  rw [fileData, hw, Receiver.writeChunk_error hw]
  rfl

theorem Request.Uploads.exceeds (h : q.Uploads sessionId fileId) (hfits : q.body.size ≤ limit) :
    exceeds limit q = false := by
  unfold Http.exceeds
  cases hlength : q.declaredLength? with
  | none => rfl
  | some n =>
    rw [h.length n hlength]
    exact decide_eq_false (Nat.not_lt.mpr hfits)

theorem Request.Uploads.withBody (h : q.Uploads sessionId fileId) (hfits : q.body.size ≤ limit)
    (handler : ByteArray → Answer × Receiver) : withBody limit r q handler = handler q.body := by
  refine if_neg (Nat.not_lt.mpr ?_)
  unfold bodyLimit
  cases hlength : q.declaredLength? with
  | none => exact hfits
  | some n => rw [h.length n hlength]; exact Nat.le_min.mpr ⟨hfits, Nat.le_refl _⟩

/-- **A chunk that is short enough comes to the handler**, unless its file has an empty id. -/
theorem respond_upload (h : q.Uploads sessionId fileId) (hfits : q.body.size ≤ limit)
    (r : Receiver) :
    respond limit r q =
      if fileId = "" then (finish q notFound [], r)
      else
        let served :=
          fileData r (if isHeaderId sessionId then some sessionId else none) fileId q.body
        (finish q served.1 [], served.2) := by
  have hoptions : ¬ q.method = "OPTIONS" := by rw [h.method]; decide
  have hpost : ∀ segment, (Route.fileData segment).methods.contains q.method = true := by
    rw [h.method]
    exact fun _ => rfl
  rw [respond, if_neg hoptions, dispatch, h.exceeds hfits, if_neg Bool.false_ne_true, h.path,
    Route.ofPath?_upload]
  by_cases hid : fileId = ""
  · rw [if_pos hid, if_pos hid]
  · simp only [if_neg hid, hpost, if_true, handle, Percent.decodeText?_encode, h.withBody hfits,
      Request.headerText?_id h.session]

theorem refusalAnswer_status (e : Refusal) : (refusalAnswer e).status ≠ 200 := by
  cases e <;> exact of_decide_eq_true rfl

theorem requestSend_opened {body : ByteArray} {a : Answer} {r' : Receiver}
    (h : requestSend r body = (a, r')) (hstatus : a.status = 200) :
    ∃ id manifest opened, readSend body = .ok (id, manifest) ∧
      r.openForPeer id manifest = (.ok opened, r') ∧ a = ⟨200, .json opened.toValue⟩ := by
  unfold requestSend at h
  split at h
  · cases h
    exact absurd hstatus (refusalAnswer_status _)
  split at h
  · cases h
    exact absurd hstatus (refusalAnswer_status _)
  rename_i id manifest hread
  rcases hopen : r.openForPeer id manifest with ⟨e | opened, r''⟩
  · rw [hopen] at h
    cases h
    exact absurd hstatus (refusalAnswer_status _)
  · rw [hopen] at h
    cases h
    exact ⟨id, manifest, opened, hread, hopen, rfl⟩

/-- What a request to send that is answered by 200 has opened. -/
theorem respond_opened {response : Response} {r' : Receiver} (hpost : q.method = "POST")
    (hpath : q.path = "/request-send") (h : respond limit r q = (response, r'))
    (hstatus : response.status = 200) :
    ∃ id manifest opened, readSend q.body = .ok (id, manifest) ∧
      r.openForPeer id manifest = (.ok opened, r') ∧
      response.body = opened.toValue.compact := by
  have hoptions : ¬ q.method = "OPTIONS" := by rw [hpost]; decide
  have hhead : ¬ q.method = "HEAD" := by rw [hpost]; decide
  have hroute : Route.ofPath? q.path = some .requestSend := by rw [hpath]; decide
  have hmethod : Route.requestSend.methods.contains q.method = true := by rw [hpost]; rfl
  rw [respond, if_neg hoptions, dispatch, hroute] at h
  by_cases hexceeds : exceeds limit q = true
  · rw [if_pos hexceeds] at h
    cases h
    exact absurd (show declaredTooLong.status = 200 from hstatus) (by decide)
  simp only [if_neg hexceeds, hmethod, if_true, handle] at h
  rcases withBody_eq limit r q (requestSend r) with heq | heq
  · rw [heq] at h
    cases h
    exact absurd (show bodyTooLong.status = 200 from hstatus) (by decide)
  rw [heq] at h
  rcases hsend : requestSend r q.body with ⟨a, r''⟩
  rw [hsend] at h
  cases h
  obtain ⟨id, manifest, opened, hread, hopen, rfl⟩ := requestSend_opened hsend hstatus
  exact ⟨id, manifest, opened, hread, hopen, if_neg hhead⟩

end Http

namespace Receiver

variable {r r' : Receiver} {limit : Nat} {fileId : String}

/-- A session that lasts keeps its id. -/
theorem sessionId?_lasting {events : List Event} (hl : r.Lasts events) :
    (r.after events).sessionId? = r.sessionId? := by
  induction events generalizing r with
  | nil => rfl
  | cons e rest ih =>
    cases e with
    | changed d => exact ih (r := r.on d) hl
    | asked o =>
      obtain ⟨hfirst, hrest⟩ := hl.asked
      refine (ih hrest).trans ?_
      rcases r.perform_lasting o hfirst with hsame |
        ⟨s, id, t, bytes, result, t', d, hs, -, -, -, hs'⟩
      · rw [sessionId?, hsame]
        rfl
      · rw [sessionId?, sessionId?, hs, hs']
        rfl

/-- A file that is accepted gets a record. -/
theorem file?_opened {id : String} {manifest : Manifest} {opened : Opened}
    (h : r.openForPeer id manifest = (.ok opened, r'))
    (haccepted : (fileId, true) ∈ opened.verdicts) : ∃ t, r'.file? fileId = some t := by
  obtain ⟨rfl, hs, -⟩ := openForPeer_ok h
  rw [file?_eq hs]
  refine Option.ne_none_iff_exists'.mp fun hnone => ?_
  refine (Session.file?_eq_none_iff _ fileId).mp hnone ?_
  rw [admitted, List.map_reverse, List.mem_reverse, ← Admission.accepted_verdicts]
  have hverdict := List.mem_reverse.mp haccepted
  exact List.mem_map.mpr ⟨_, List.mem_filter.mpr ⟨hverdict, rfl⟩, rfl⟩

/-- A request is answered with the report on a chunk of a file of the current session. -/
def Reports (limit : Nat) (r : Receiver) (q : Http.Request) (fileId : String) : Prop :=
  ∃ report r', r.writeChunk r.sessionId? fileId q.body = (.ok report, r') ∧
    r.sessionId? = some report.sessionId ∧ report.fileId = fileId ∧
    Http.respond limit r q = (Http.finish q (Http.chunkAnswer report) [], r')

/-- A report is sent by 200 or by 500. -/
theorem not_reports {q : Http.Request} {answer : Http.Answer}
    (h : (Http.respond limit r q).1 = Http.finish q answer [])
    (hrefused : 400 ≤ answer.status ∧ answer.status < 500) : ¬ Reports limit r q fileId := by
  rintro ⟨report, r', -, -, -, hrespond⟩
  rw [hrespond] at h
  have hstatus : (Http.chunkAnswer report).status = answer.status :=
    congrArg Http.Response.status h
  unfold Http.chunkAnswer at hstatus
  dsimp only at hstatus
  split at hstatus <;> omega

/-- A chunk of a file of the current session is reported on. -/
theorem exists_report {id : String} {t : Transfer} (hid : r.sessionId? = some id)
    (hfile : r.file? fileId = some t) (bytes : ByteArray) :
    ∃ report r', r.writeChunk (some id) fileId bytes = (.ok report, r') ∧
      report.sessionId = id ∧ report.fileId = fileId := by
  obtain ⟨s, hs, rfl⟩ := Option.map_eq_some_iff.mp hid
  rw [file?_eq hs] at hfile
  rcases hreceive : t.receive bytes r.disk with ⟨result, t', d⟩
  refine ⟨t'.report s.id result, { r with session := some (s.update t'), disk := d }, ?_, rfl,
    (Transfer.receive_paths hreceive).1.trans (Session.fileId_of_file? hfile)⟩
  simp only [writeChunk, hs, ne_eq, not_true_eq_false, if_false, hfile, hreceive]

/-- **What is accepted can be sent, but for the empty id and ids that no header shows.** Whatever
request to send is answered by 200: as long as its session lasts, a chunk of a file that the answer
marks as accepted is answered with the report of that file, if the file has an id that is not empty
and the id of the session is ASCII without control characters, and only then. Of a file with an
empty id the receiver finds no route, and of a session with another id it finds no session. -/
theorem uploads_reach_iff {q : Http.Request} {response : Http.Response} (hpost : q.method = "POST")
    (hpath : q.path = "/request-send") (h : Http.respond limit r q = (response, r'))
    (hstatus : response.status = 200) :
    ∃ (id : String) (manifest : Manifest) (opened : Opened),
      Http.readSend q.body = .ok (id, manifest) ∧ r.openForPeer id manifest = (.ok opened, r') ∧
      opened.sessionId = id ∧ response.body = opened.toValue.compact ∧
      ∀ fileId, (fileId, true) ∈ opened.verdicts → ∀ events, r'.Lasts events →
      ∀ chunk : Http.Request, chunk.Uploads id fileId → chunk.body.size ≤ limit →
        (Reports limit (r'.after events) chunk fileId ↔
          fileId ≠ "" ∧ Http.isHeaderId id = true) ∧
        (fileId = "" → Http.respond limit (r'.after events) chunk =
          (Http.finish chunk Http.notFound [], r'.after events)) ∧
        (fileId ≠ "" → Http.isHeaderId id = false → Http.respond limit (r'.after events) chunk =
          (Http.finish chunk (Http.refusalAnswer (.sessionMismatch (some id) none)) [],
            r'.after events)) := by
  obtain ⟨id, manifest, opened, hread, hopen, hbody⟩ := Http.respond_opened hpost hpath h hstatus
  obtain ⟨hopened, hs, -⟩ := openForPeer_ok hopen
  refine ⟨id, manifest, opened, hread, hopen, by rw [hopened], hbody, ?_⟩
  intro fileId haccepted events hlasts chunk huploads hfits
  have hcurrent : (r'.after events).sessionId? = some id := by
    rw [sessionId?_lasting hlasts, sessionId?, hs]
    rfl
  obtain ⟨t, ht⟩ := file?_opened hopen haccepted
  obtain ⟨t', ht', -⟩ := advances_after hlasts ht
  generalize r'.after events = now at hcurrent ht'
  have hrespond := Http.respond_upload huploads hfits now
  by_cases hempty : fileId = ""
  · rw [if_pos hempty] at hrespond
    have hnot : ¬ Reports limit now chunk fileId :=
      not_reports (congrArg Prod.fst hrespond) (by decide)
    exact ⟨⟨fun hreports => absurd hreports hnot, fun hboth => absurd hempty hboth.1⟩,
      fun _ => hrespond, fun hne => absurd hempty hne⟩
  rw [if_neg hempty] at hrespond
  cases hascii : Http.isHeaderId id with
  | true =>
    obtain ⟨report, after, hwrite, hsession, hfile⟩ := exists_report hcurrent ht' chunk.body
    rw [hascii, if_pos rfl, Http.fileData_ok hwrite] at hrespond
    refine ⟨⟨fun _ => ⟨hempty, rfl⟩, fun _ => ⟨report, after, ?_, ?_, hfile, hrespond⟩⟩,
      fun hid => absurd hid hempty, fun _ hfalse => absurd hfalse.symm Bool.false_ne_true⟩
    · rw [hcurrent, hwrite]
    · rw [hcurrent, hsession]
  | false =>
    have hrefused := (now.writeChunk_mismatch_iff none fileId chunk.body).mpr (Or.inl rfl)
    rw [hcurrent] at hrefused
    rw [hascii, if_neg Bool.false_ne_true, Http.fileData_error hrefused] at hrespond
    have hnot : ¬ Reports limit now chunk fileId :=
      not_reports (congrArg Prod.fst hrespond) ⟨Nat.le_refl 400, show 400 < 500 by decide⟩
    exact ⟨⟨fun hreports => absurd hreports hnot, fun hboth => absurd hboth.2 Bool.false_ne_true⟩,
      fun hid => absurd hid hempty, fun _ _ => hrespond⟩

/-- A receiver with a connected peer, on an empty disk. -/
def connectedExample : Receiver :=
  { unpairedExample with peer := some { id := "d", nickname := "n" } }

/-- A request to send one file of one byte. -/
def manifestRequest (sessionId fileId : String) : Http.Request :=
  ⟨"POST", "/request-send", [], ("\x7b\"session_id\":\"" ++ sessionId ++
    "\",\"files\":\x7b\"" ++ fileId ++ "\":\x7b\"size\":1\x7d\x7d\x7d").toUTF8⟩

/-- A chunk of one byte. -/
def chunkRequest (sessionId fileId : String) : Http.Request :=
  ⟨"POST", Http.uploadTarget fileId, [(Http.sessionHeader, sessionId.toUTF8)], ⟨#[7]⟩⟩

theorem chunkRequest_uploads (sessionId fileId : String) :
    (chunkRequest sessionId fileId).Uploads sessionId fileId where
  method := rfl
  target := rfl
  session := by
    have hname :
        (Http.sessionHeader.toList.map Char.toLower == Http.sessionHeader.toList) = true := by
      decide
    simp only [Http.Request.header?, chunkRequest, List.find?_cons, hname, Option.map_some]
  length n h := by
    have hname :
        (Http.sessionHeader.toList.map Char.toLower == "content-length".toList) = false := by
      decide
    have hnone : (chunkRequest sessionId fileId).header? "content-length" = none := by
      simp only [Http.Request.header?, chunkRequest, List.find?_cons, hname, List.find?_nil,
        Option.map_none]
    rw [Http.Request.declaredLength?, Http.Request.headerText?, hnone] at h
    cases h

/-- What does not end a session: a pairing that fails, and a chunk of no file. -/
def idleEvents : List Event :=
  [.asked (.pair "000000" { id := "e", nickname := "m" }),
    .asked (.writeChunk (some "s") "b" ⟨#[7]⟩)]

/-- A session whose file has an id that has to be encoded. -/
def slashedExample : Receiver :=
  (Http.respond 1024 connectedExample (manifestRequest "s" "a/b")).2

theorem slashed_id_reached :
    (Http.respond 1024 connectedExample (manifestRequest "s" "a/b")).1.status = 200 ∧
      slashedExample.Lasts idleEvents ∧
      Reports 1024 (slashedExample.after idleEvents) (chunkRequest "s" "a/b") "a/b" := by
  have hpath : (manifestRequest "s" "a/b").path = "/request-send" := by decide +kernel
  have hstatus :
      (Http.respond 1024 connectedExample (manifestRequest "s" "a/b")).1.status = 200 := by
    decide +kernel
  have hsent : (Http.readSend (manifestRequest "s" "a/b").body).toOption =
      some ("s", [("a/b", { size := 1 })]) := by
    decide +kernel
  have hlasts : slashedExample.Lasts idleEvents := by decide +kernel
  obtain ⟨id, manifest, opened, hread, hopen, -, -, hreach⟩ :=
    uploads_reach_iff rfl hpath (Prod.eta _).symm hstatus
  rw [hread] at hsent
  cases hsent
  have hverdicts : (connectedExample.openForPeer "s" [("a/b", { size := 1 })]).1.toOption.map
      (·.verdicts) = some [("a/b", true)] := by
    decide +kernel
  rw [hopen] at hverdicts
  have haccepted : ("a/b", true) ∈ opened.verdicts := by
    have hopened : opened.verdicts = [("a/b", true)] := Option.some.inj hverdicts
    rw [hopened]
    exact List.mem_singleton_self _
  have huploads := chunkRequest_uploads "s" "a/b"
  refine ⟨hstatus, hlasts, ?_⟩
  exact (hreach "a/b" haccepted idleEvents hlasts _ huploads (by decide)).1.mpr
    ⟨by decide, by decide +kernel⟩

/-- An empty id for a file, and an accent in the id of a session: both are accepted, and neither is
reached. -/
theorem accepted_unreachable :
    ((Http.respond 1024 connectedExample (manifestRequest "s" "")).1.status = 200 ∧
      (Http.respond 1024 connectedExample (manifestRequest "s" "")).1.body =
        "\x7b\"session_id\":\"s\",\"accepted_files\":\x7b\"\":true\x7d\x7d" ∧
      "s".toUTF8.toList.all Http.isHeaderByte = true ∧ (chunkRequest "s" "").Uploads "s" "" ∧
      (Http.respond 1024 (Http.respond 1024 connectedExample (manifestRequest "s" "")).2
        (chunkRequest "s" "")).1.status = 404) ∧
    ((Http.respond 1024 connectedExample (manifestRequest "é" "f")).1.status = 200 ∧
      (Http.respond 1024 connectedExample (manifestRequest "é" "f")).1.body =
        "\x7b\"session_id\":\"é\",\"accepted_files\":\x7b\"f\":true\x7d\x7d" ∧
      "é".toUTF8.toList.all Http.isHeaderByte = true ∧ (chunkRequest "é" "f").Uploads "é" "f" ∧
      (Http.respond 1024 (Http.respond 1024 connectedExample (manifestRequest "é" "f")).2
        (chunkRequest "é" "f")).1.status = 400) := by
  refine ⟨⟨?_, ?_, ?_, chunkRequest_uploads "s" "", ?_⟩,
    ?_, ?_, ?_, chunkRequest_uploads "é" "f", ?_⟩
  all_goals decide +kernel

end Receiver
end FileReceiver
