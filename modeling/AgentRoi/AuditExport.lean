/-
`SqliteAuditStore.export_jsonl` of `agent_roi.audit.store`: the exported file
and the store it comes from.

* `exportJsonl` — the lines written for the stored events;
* `recordEach` of both stores — calls of `record`, of which some may raise;
* `Recorded` — a log that a SQLite store holds, each of whose events UTF-8 can
  encode;
* `writeEvents_represents` — the file holds the same log;
* `exported_log_agrees` — the file verifies, with the same count and tails, and
  still does after more calls of `record` on it.

Asked about a correlation id that UTF-8 cannot encode, the SQLite store raises
and the JSONL store finds nothing (`surrogateId_counterexample`).
-/
import AgentRoi.AuditRuns

namespace AgentRoi

open ChainLog

variable {F : Type} [PyBuiltins F]

namespace SqliteAuditStore

/-- The loop of `export_jsonl`, on the file it writes. -/
def writeEvents : List (AuditEvent F) → PyM JsonlAuditStore Unit
  | [] => return ()
  | e :: es => do
    JsonlAuditStore.write (stableJson e.toDict)
    writeEvents es

/-- `export_jsonl`: what it writes to the file.  When it raises, the target is
left alone. -/
def exportJsonl (F : Type) [PyBuiltins F] (s : SqliteAuditStore) : Except PyExc Str := do
  let es : List (AuditEvent F) ← events 1 s.rows
  let written := writeEvents es (.empty true)
  let _ ← written.1
  return written.2.content

/-- Calls of `record`, one after the other; one that raises changes nothing. -/
def recordEach (H : Sha256) (calls : List (RecordCall F)) (s : SqliteAuditStore) :
    SqliteAuditStore := calls.foldl (fun s call => (record H call s).2) s

end SqliteAuditStore

/-- Calls of `record`, one after the other. -/
def JsonlAuditStore.recordEach (H : Sha256) (calls : List (RecordCall F)) (s : JsonlAuditStore) :
    JsonlAuditStore := calls.foldl (fun s call => (record H call s).2) s

/-! ### What a call leaves -/

theorem SqliteAuditStore.record_eq_error {H : Sha256} {s s' : SqliteAuditStore}
    {call : RecordCall F} {exc : PyExc} (h : record H call s = (.error exc, s')) : s' = s :=
  (PyM.transaction_eq_error.mp h).1

theorem JsonlAuditStore.record_eq_error {H : Sha256} {s s' : JsonlAuditStore}
    {call : RecordCall F} {exc : PyExc} (h : record H call s = (.error exc, s')) : s' = s := by
  rw [record, PyM.get_bind, PyM.ofExcept_bind_eq_error] at h
  rcases h with ⟨-, hs⟩ | ⟨objects, -, h⟩
  · exact hs
  · rw [PyM.ofExcept_bind_eq_error] at h
    rcases h with ⟨-, hs⟩ | ⟨e, -, h⟩
    · exact hs
    · rcases PyM.bind_eq_error.mp h with hwrite | ⟨_, s₁, -, hpure⟩
      · exact write_eq_error hwrite
      · cases hpure

/-- SQLite takes no event whose text UTF-8 cannot encode. -/
theorem SqliteAuditStore.record_encodable {H : Sha256} {s s' : SqliteAuditStore}
    {call : RecordCall F} {e : AuditEvent F} (h : record H call s = (.ok e, s')) :
    (encodeUtf8 (stableJson e.toDict)).isSome := by
  rw [record, PyM.transaction_eq_ok, PyM.get_bind, PyM.ofExcept_bind_eq_ok] at h
  obtain ⟨previous, -, h⟩ := h
  rw [PyM.ofExcept_bind_eq_ok] at h
  obtain ⟨e', -, h⟩ := h
  obtain ⟨⟨⟩, s'', hinsert, h⟩ := PyM.bind_eq_ok.mp h
  cases h
  simp only [insert, PyM.ofExcept_bind_eq_ok] at hinsert
  obtain ⟨_, -, _, -, _, -, _, -, _, hjson, -⟩ := hinsert
  exact bindText_eq_ok hjson

namespace AuditStore

/-- A log that a SQLite store holds, whose events are texts of files. -/
structure Recorded (H : Sha256) (log : List (AuditEvent F)) (s : SqliteAuditStore) : Prop where
  holds : Holds H .sqlite true log (.sqlite s)
  encodable : ∀ e ∈ log, (encodeUtf8 (stableJson e.toDict)).isSome
  identified : ∀ e ∈ log, e.correlationId ≠ []

theorem recorded_step {H : Sha256} {log : List (AuditEvent F)} {s : SqliteAuditStore}
    (hs : Recorded H log s) (call : RecordCall F) (hid : call.correlationId ≠ []) :
    ∃ log' : List (AuditEvent F), Recorded H log' (SqliteAuditStore.record H call s).2 := by
  rcases hrec : SqliteAuditStore.record H call s with ⟨exc | e, s'⟩
  · rw [SqliteAuditStore.record_eq_error hrec]
    exact ⟨log, hs⟩
  · obtain ⟨hholds, hcorr⟩ := record_step hs.holds (PyM.embed_eq.mpr ⟨s', hrec, rfl⟩)
    refine ⟨log ++ [e], hholds, fun e' he' => ?_, fun e' he' => ?_⟩
    · rcases List.mem_append.mp he' with hold | hnew
      · exact hs.encodable e' hold
      · rw [List.mem_singleton.mp hnew]
        exact SqliteAuditStore.record_encodable hrec
    · rcases List.mem_append.mp he' with hold | hnew
      · exact hs.identified e' hold
      · rw [List.mem_singleton.mp hnew, hcorr]
        exact hid

theorem recorded_recordEach {H : Sha256} {log : List (AuditEvent F)} {s : SqliteAuditStore}
    (hs : Recorded H log s) (calls : List (RecordCall F))
    (hids : ∀ call ∈ calls, call.correlationId ≠ []) :
    ∃ log' : List (AuditEvent F), Recorded H log' (SqliteAuditStore.recordEach H calls s) := by
  induction calls generalizing log s with
  | nil => exact ⟨log, hs⟩
  | cons call calls ih =>
    obtain ⟨hid, hrest⟩ := List.forall_mem_cons.mp hids
    obtain ⟨log', hs'⟩ := recorded_step hs call hid
    exact ih hs' hrest

/-- A log in a file, whose events the file's verifier accepts. -/
structure Filed (H : Sha256) (log : List (AuditEvent F)) (s : JsonlAuditStore) : Prop where
  holds : Holds H .jsonl true log (.jsonl s)
  identified : ∀ e ∈ log, e.correlationId ≠ []

theorem filed_step {H : Sha256} {log : List (AuditEvent F)} {s : JsonlAuditStore}
    (hs : Filed H log s) (call : RecordCall F) (hid : call.correlationId ≠ []) :
    ∃ log' : List (AuditEvent F), Filed H log' (JsonlAuditStore.record H call s).2 := by
  rcases hrec : JsonlAuditStore.record H call s with ⟨exc | e, s'⟩
  · rw [JsonlAuditStore.record_eq_error hrec]
    exact ⟨log, hs⟩
  · obtain ⟨hholds, hcorr⟩ := record_step hs.holds (PyM.embed_eq.mpr ⟨s', hrec, rfl⟩)
    refine ⟨log ++ [e], hholds, fun e' he' => ?_⟩
    rcases List.mem_append.mp he' with hold | hnew
    · exact hs.identified e' hold
    · rw [List.mem_singleton.mp hnew, hcorr]
      exact hid

theorem filed_recordEach {H : Sha256} {log : List (AuditEvent F)} {s : JsonlAuditStore}
    (hs : Filed H log s) (calls : List (RecordCall F))
    (hids : ∀ call ∈ calls, call.correlationId ≠ []) :
    ∃ log' : List (AuditEvent F), Filed H log' (JsonlAuditStore.recordEach H calls s) := by
  induction calls generalizing log s with
  | nil => exact ⟨log, hs⟩
  | cons call calls ih =>
    obtain ⟨hid, hrest⟩ := List.forall_mem_cons.mp hids
    obtain ⟨log', hs'⟩ := filed_step hs call hid
    exact ih hs' hrest

theorem Filed.verify {H : Sha256} {log : List (AuditEvent F)} {s : JsonlAuditStore}
    (hs : Filed H log s) : s.verify F H = .ok log.length :=
  (verify_holds_iff hs.holds).mpr fun _ => hs.identified

/-! ### The exported file -/

theorem storedObj_readBack (e : AuditEvent F) :
    JsonlAuditStore.storedObj (SqliteAuditStore.readBack e) = JsonlAuditStore.storedObj e := by
  have h := JsonlAuditStore.loads_stored (SqliteAuditStore.readBack e)
  rw [SqliteAuditStore.stableJson_readBack, JsonlAuditStore.loads_stored] at h
  exact (Json.obj.inj (Option.some.inj h)).symm

/-- The lines written for the events of a log hold the log. -/
theorem writeEvents_represents (file : JsonlAuditStore) {objects : List (JsonObj F)}
    (hend : EndsLine file.content) (ho : file.objects = .ok objects) (log : List (AuditEvent F))
    (henc : ∀ e ∈ log, (encodeUtf8 (stableJson e.toDict)).isSome) :
    ∃ file', SqliteAuditStore.writeEvents (log.map SqliteAuditStore.readBack) file =
        (.ok (), file') ∧ EndsLine file'.content ∧
      file'.objects = .ok (objects ++ log.map JsonlAuditStore.storedObj) := by
  induction log generalizing file objects with
  | nil => exact ⟨file, rfl, hend, by rw [ho, List.map_nil, List.append_nil]⟩
  | cons e log ih =>
    obtain ⟨hfirst, hrest⟩ := List.forall_mem_cons.mp henc
    obtain ⟨file₁, hwrite⟩ : ∃ file₁, JsonlAuditStore.write
        (stableJson (SqliteAuditStore.readBack e).toDict) file = (.ok (), file₁) := by
      obtain ⟨bytes, hbytes⟩ := Option.isSome_iff_exists.mp hfirst
      rw [SqliteAuditStore.stableJson_readBack, JsonlAuditStore.write, hbytes]
      exact ⟨_, rfl⟩
    obtain ⟨-, hend₁, ho₁⟩ := JsonlAuditStore.objects_write hend ho hwrite
    rw [storedObj_readBack] at ho₁
    obtain ⟨file', hwrites, hend', ho'⟩ := ih file₁ hend₁ ho₁ hrest
    refine ⟨file', ?_, hend', ?_⟩
    · rw [List.map_cons, SqliteAuditStore.writeEvents, PyM.bind_of_ok hwrite, hwrites]
    · rw [ho', List.append_assoc]
      rfl

/-- The file of an export holds the log of the store. -/
theorem exists_exportJsonl {H : Sha256} {log : List (AuditEvent F)} {s : SqliteAuditStore}
    (hs : Recorded H log s) :
    ∃ content, s.exportJsonl F = .ok content ∧ Filed H log ⟨true, content⟩ := by
  obtain ⟨file, hwrites, hend, ho⟩ := writeEvents_represents (.empty true) (.inl rfl) rfl log
    hs.encodable
  have hevents : SqliteAuditStore.events 1 s.rows = .ok (log.map SqliteAuditStore.readBack) :=
    SqliteAuditStore.events_eq_ok_iff.mpr hs.holds.represents
  refine ⟨file.content, ?_, ⟨rfl, rfl, ⟨hend, ho⟩, hs.holds.verified⟩, hs.identified⟩
  rw [SqliteAuditStore.exportJsonl, hevents]
  show (do
    let _ ← (SqliteAuditStore.writeEvents (log.map SqliteAuditStore.readBack) (.empty true)).1
    return (SqliteAuditStore.writeEvents (log.map SqliteAuditStore.readBack)
      (.empty true)).2.content : Except PyExc Str) = _
  rw [hwrites]
  rfl

/-- An exported log verifies in the file, with the count and the tails of the
store it comes from, and continues to verify as it is recorded to. -/
theorem exported_log_agrees (H : Sha256) (calls : List (RecordCall F))
    (hids : ∀ call ∈ calls, call.correlationId ≠ []) :
    let store := SqliteAuditStore.recordEach H calls (.empty true)
    ∃ n content, store.verify F H = .ok n ∧ store.exportJsonl F = .ok content ∧
      (JsonlAuditStore.mk true content).verify F H = .ok n ∧
      (∀ id, (encodeUtf8 id).isSome → ∃ tail, store.lastHash F id = .ok tail ∧
        (JsonlAuditStore.mk true content).lastHash F id = .ok tail) ∧
      ∀ more : List (RecordCall F), (∀ call ∈ more, call.correlationId ≠ []) →
        ∃ m, (JsonlAuditStore.recordEach H more ⟨true, content⟩).verify F H = .ok m := by
  intro store
  have hempty : Recorded H ([] : List (AuditEvent F)) (.empty true) :=
    ⟨holds_empty H .sqlite true, by simp, by simp⟩
  obtain ⟨log, hs⟩ := recorded_recordEach hempty calls hids
  obtain ⟨content, hexport, hfiled⟩ := exists_exportJsonl hs
  refine ⟨log.length, content, ?_, hexport, hfiled.verify, fun id hid => ?_, fun more hmore => ?_⟩
  · exact (verify_holds_iff hs.holds).mpr fun h => (by cases h)
  · exact ⟨chainTail log id, (lastHash_holds_iff hs.holds id).mpr fun _ => hid,
      (lastHash_holds_iff hfiled.holds id).mpr fun h => (by cases h)⟩
  · obtain ⟨log', hlog'⟩ := filed_recordEach hfiled more hmore
    exact ⟨log'.length, hlog'.verify⟩

/-- Two events of one chain and one of another. -/
def exportCalls : List (RecordCall Half) :=
  [⟨lit "e1", 7, lit "c", lit "r", lit "run_started", []⟩,
    ⟨lit "e2", 8, lit "d", lit "r", lit "tool", []⟩,
    ⟨lit "e3", 9, lit "c", lit "r", lit "run_completed", []⟩]

theorem exported_log_agrees_sample : ∃ n content,
    (SqliteAuditStore.recordEach default exportCalls (.empty true)).verify Half default = .ok n ∧
      (SqliteAuditStore.recordEach default exportCalls (.empty true)).exportJsonl Half =
        .ok content ∧
      (JsonlAuditStore.mk true content).verify Half default = .ok n := by
  obtain ⟨n, content, hverify, hexport, hfile, -⟩ :=
    exported_log_agrees default exportCalls (by decide)
  exact ⟨n, content, hverify, hexport, hfile⟩

/-- A correlation id that no event of the store can have. -/
theorem surrogateId_counterexample :
    ¬ ∀ (calls : List (RecordCall Half)) (content id : Str),
      (∀ call ∈ calls, call.correlationId ≠ []) →
      (SqliteAuditStore.recordEach default calls (.empty true)).exportJsonl Half = .ok content →
      (JsonlAuditStore.mk true content).lastHash Half id =
        (SqliteAuditStore.recordEach default calls (.empty true)).lastHash Half id := by
  intro h
  have hagree := h [] [] [0xD800] (by simp) rfl
  rw [SqliteAuditStore.lastHash,
    SqliteAuditStore.previousHash_of_not_encodable (by decide)] at hagree
  cases hagree

end AuditStore

end AgentRoi
