import Mathlib
import SnippetRunner.Network.Script
import SnippetRunner.Proofs.Output.Publishing

/-!
Polling a sink. A client asks time and again for the records above the highest number that it
has received, while others publish. The answers put together are strictly increasing in their
numbers, and an answer lacks nothing but the oldest of the records that were published since the
poll before it, and these only if there were more than the sink keeps.
-/
namespace SnippetRunner.Sink

variable {s : Sink} {h : Host} {result : JobResult} {record : OutputRecord}

/-- What is kept and how it is numbered, without the file and the listeners. -/
def memory (s : Sink) : Nat × List OutputRecord := (s.seq, s.records)

/-- What a publication adds does not depend on what comes of the output file. -/
theorem publish_sink (s : Sink) (h : Host) (result : JobResult) :
    (s.publish h result).1.seq = s.seq + 1 ∧
      (s.publish h result).1.records =
        keepLast s.capacity (s.records ++ [⟨s.seq + 1, result, h.now⟩]) ∧
      (s.publish h result).1.capacity = s.capacity := by
  unfold publish
  dsimp only
  split
  · exact ⟨rfl, rfl, rfl⟩
  · exact ⟨rfl, rfl, rfl⟩

theorem publish_record (hok : (s.publish h result).2.2 = .ok record) :
    record = ⟨s.seq + 1, result, h.now⟩ := by
  unfold publish at hok
  dsimp only at hok
  split at hok
  · cases hok
  · cases hok
    rfl

theorem keepLast_length {α : Type} (n : Nat) (items : List α) :
    (keepLast n items).length = min n items.length := by
  rw [keepLast, List.length_drop]
  omega

/-- Keeping the last items at every addition keeps the last items of all. -/
theorem keepLast_keepLast_append {α : Type} {n : Nat} (hn : 1 ≤ n) (items : List α) (last : α) :
    keepLast n (keepLast n items ++ [last]) = keepLast n (items ++ [last]) := by
  have hlength := keepLast_length n items
  have hshort : (keepLast n items ++ [last]).length - n ≤ (keepLast n items).length := by
    rw [List.length_append, List.length_singleton]
    omega
  have hlong : (items ++ [last]).length - n ≤ items.length := by
    rw [List.length_append, List.length_singleton]
    omega
  unfold keepLast at hshort ⊢
  rw [List.drop_append_of_le_length hshort, List.drop_append_of_le_length hlong, List.drop_drop]
  congr 2
  simp only [List.length_append, List.length_drop, List.length_singleton]
  omega

/-- What is kept of two parts: of the first one only what the second one leaves room for. -/
theorem keepLast_append {α : Type} (n : Nat) (first second : List α) :
    keepLast n (first ++ second) =
      first.drop (first.length + second.length - n) ++ keepLast n second := by
  unfold keepLast
  rw [List.drop_append, List.length_append]
  congr 2
  omega

theorem foldl_max_range' {start first n : Nat} (hstart : start ≤ first) (hn : 0 < n) :
    (List.range' (first + 1) n).foldl max start = first + n := by
  induction n with
  | zero => cases hn
  | succ n ih =>
    rw [List.range'_concat, List.foldl_append]
    simp only [List.foldl_cons, List.foldl_nil]
    rcases Nat.eq_zero_or_pos n with rfl | hpos
    · simp only [List.range'_zero, List.foldl_nil]
      omega
    · rw [ih hpos]
      omega

structure Poll where
  published : List OutputRecord
  answer : List OutputRecord

structure Polled where
  sink : Sink
  host : Host
  polls : List Poll := []
  /-- What was published since the last poll. -/
  unseen : List OutputRecord := []

namespace Polled

variable {w w' : Polled}

def seen (w : Polled) : List OutputRecord := w.polls.flatMap (·.published)

def published (w : Polled) : List OutputRecord := w.seen ++ w.unseen

def received (w : Polled) : List OutputRecord := w.polls.flatMap (·.answer)

def cursor (w : Polled) : Nat := (w.received.map (·.seq)).foldl max 0

def answered (w : Polled) : Polled :=
  { w with polls := w.polls ++ [⟨w.unseen, w.sink.since w.cursor⟩], unseen := [] }

theorem seen_answered (w : Polled) : w.answered.seen = w.published := by
  simp [answered, seen, published]

theorem published_answered (w : Polled) : w.answered.published = w.published :=
  (List.append_nil _).trans w.seen_answered

theorem received_answered (w : Polled) :
    w.answered.received = w.received ++ w.sink.since w.cursor := by
  simp [answered, received]

/-- Publications, polls, and anything that happens to the host in between, so that the output
file may be writable at one moment and not at another. -/
inductive Step (w : Polled) : Polled → Prop
  | publish (result : JobResult) (record : OutputRecord) :
    (w.sink.publish w.host result).2.2 = .ok record → Step w { w with
      sink := (w.sink.publish w.host result).1
      host := (w.sink.publish w.host result).2.1
      unseen := w.unseen ++ [record] }
  | poll : Step w w.answered
  | subscribe (l : Listener) : Step w { w with sink := w.sink.subscribe l }
  | aside (host : Host) : Step w { w with host }

abbrev Run : Polled → Polled → Prop := Relation.ReflTransGen Step

structure Sound (w : Polled) : Prop where
  count : w.sink.seq = w.published.length
  numbers : w.published.map (·.seq) = List.range' 1 w.published.length
  kept : w.sink.records = keepLast w.sink.capacity w.published
  cursor : w.cursor = w.seen.length
  received : w.received.Sublist w.seen
  missed : ∀ p ∈ w.polls, ∃ missed, p.published = missed ++ p.answer ∧
    missed.length = p.published.length - w.sink.capacity

theorem sound_start (path : Option Path) (history : Int) (h : Host) :
    Sound { sink := { path, history }, host := h } where
  count := rfl
  numbers := rfl
  kept := List.drop_nil.symm
  cursor := rfl
  received := .slnil
  missed p hp := by cases hp

theorem Sound.publish (hw : Sound w) (hok : (w.sink.publish w.host result).2.2 = .ok record) :
    Sound { w with
      sink := (w.sink.publish w.host result).1
      host := (w.sink.publish w.host result).2.1
      unseen := w.unseen ++ [record] } := by
  obtain ⟨hseq, hrecords, hcapacity⟩ := publish_sink w.sink w.host result
  have hrecord := publish_record hok
  have hpublished : published { w with
      sink := (w.sink.publish w.host result).1
      host := (w.sink.publish w.host result).2.1
      unseen := w.unseen ++ [record] } = w.published ++ [record] := by
    simp only [published, seen, List.append_assoc]
  refine ⟨?_, ?_, ?_, hw.cursor, hw.received, ?_⟩
  · rw [hpublished, hseq, hw.count, List.length_append, List.length_singleton]
  · rw [hpublished, List.map_append, hw.numbers, List.length_append, List.length_singleton,
      List.range'_concat, List.map_singleton, hrecord, hw.count]
    rw [Nat.one_mul, Nat.add_comm]
  · have hroom : 1 ≤ w.sink.capacity := by
      unfold capacity
      omega
    rw [hpublished, hrecords, hcapacity, hw.kept, keepLast_keepLast_append hroom, hrecord]
  · rw [hcapacity]
    exact hw.missed

theorem Sound.numbers_split (hw : Sound w) :
    w.seen.map (·.seq) = List.range' 1 w.seen.length ∧
      w.unseen.map (·.seq) = List.range' (1 + w.seen.length) w.unseen.length := by
  have hnumbers := hw.numbers
  rw [published, List.map_append, List.length_append, ← List.range'_append_1] at hnumbers
  exact List.append_inj hnumbers (by simp)

/-- The answer to a poll is what is kept of the records that were published since the last one. -/
theorem Sound.since_cursor (hw : Sound w) :
    w.sink.since w.cursor = keepLast w.sink.capacity w.unseen := by
  obtain ⟨hseen, hunseen⟩ := hw.numbers_split
  have hold : ∀ r ∈ w.seen, r.seq ≤ w.seen.length := by
    intro r hr
    have hmem : r.seq ∈ List.range' 1 w.seen.length := hseen ▸ List.mem_map_of_mem hr
    rw [List.mem_range'_1] at hmem
    omega
  have hnew : ∀ r ∈ w.unseen, w.seen.length < r.seq := by
    intro r hr
    have hmem : r.seq ∈ List.range' (1 + w.seen.length) w.unseen.length :=
      hunseen ▸ List.mem_map_of_mem hr
    rw [List.mem_range'_1] at hmem
    omega
  rw [since, hw.kept, hw.cursor, published, keepLast_append, List.filter_append,
    List.filter_eq_nil_iff.mpr, List.nil_append, List.filter_eq_self.mpr]
  · intro r hr
    have hlt := hnew r (List.mem_of_mem_drop hr)
    simp only [decide_eq_true_eq]
    omega
  · intro r hr
    have hle := hold r (List.mem_of_mem_drop hr)
    simp only [decide_eq_true_eq]
    omega

/-- The client has now received the number of the record that was published last. -/
theorem Sound.cursor_poll (hw : Sound w) :
    ((keepLast w.sink.capacity w.unseen).map (·.seq)).foldl max w.seen.length =
      w.seen.length + w.unseen.length := by
  obtain ⟨-, hunseen⟩ := hw.numbers_split
  have hroom : 1 ≤ w.sink.capacity := by
    unfold capacity
    omega
  rw [keepLast, List.map_drop, hunseen, List.drop_range', Nat.mul_one]
  rcases Nat.eq_zero_or_pos w.unseen.length with hnone | hsome
  · simp [hnone]
  · rw [show 1 + w.seen.length + (w.unseen.length - w.sink.capacity) =
      w.seen.length + (w.unseen.length - w.sink.capacity) + 1 by omega,
      foldl_max_range' (by omega) (by omega)]
    omega

theorem Sound.answered (hw : Sound w) : Sound w.answered := by
  have hanswer := hw.since_cursor
  refine ⟨?_, ?_, ?_, ?_, ?_, ?_⟩
  · rw [published_answered]
    exact hw.count
  · rw [published_answered]
    exact hw.numbers
  · rw [published_answered]
    exact hw.kept
  · rw [seen_answered, published, List.length_append, ← hw.cursor_poll, ← hanswer, ← hw.cursor]
    rw [Polled.cursor, received_answered, List.map_append, List.foldl_append]
    rfl
  · rw [received_answered, seen_answered, hanswer]
    exact hw.received.append (List.drop_sublist ..)
  · intro p hp
    rcases List.mem_append.mp hp with hold | hnew
    · exact hw.missed p hold
    · obtain rfl := List.mem_singleton.mp hnew
      refine ⟨w.unseen.take (w.unseen.length - w.sink.capacity), ?_, ?_⟩
      · rw [hanswer]
        exact (List.take_append_drop ..).symm
      · exact (List.length_take ..).trans (Nat.min_eq_left (Nat.sub_le ..))

theorem Step.sound (hstep : Step w w') (hw : Sound w) : Sound w' := by
  cases hstep with
  | publish result record hok => exact hw.publish hok
  | poll => exact hw.answered
  | subscribe l => exact ⟨hw.count, hw.numbers, hw.kept, hw.cursor, hw.received, hw.missed⟩
  | aside host => exact ⟨hw.count, hw.numbers, hw.kept, hw.cursor, hw.received, hw.missed⟩

theorem Run.sound (hrun : Run w w') (hw : Sound w) : Sound w' := by
  induction hrun with
  | refl => exact hw
  | tail _ hstep ih => exact hstep.sound ih

theorem Run.capacity (hrun : Run w w') : w'.sink.capacity = w.sink.capacity := by
  induction hrun with
  | refl => rfl
  | tail _ hstep ih =>
    rw [← ih]
    cases hstep with
    | publish result record hok => exact (publish_sink ..).2.2
    | _ => rfl

/-- What a client that polls has received, by what was published. -/
structure Accounts (w : Polled) : Prop where
  numbered : ∀ n record, w.published[n]? = some record → record.seq = n + 1
  increasing : (w.received.map (·.seq)).Pairwise (· < ·)
  /-- An answer lacks the oldest records, as many as there were more than are kept. -/
  missed : ∀ p ∈ w.polls, ∃ missed, p.published = missed ++ p.answer ∧
    missed.length = p.published.length - w.sink.capacity

theorem Sound.accounts (hw : Sound w) : Accounts w where
  numbered n record hrecord := by
    have hnumber : (List.range' 1 w.published.length)[n]? = some record.seq := by
      rw [← hw.numbers, List.getElem?_map, hrecord]
      rfl
    obtain ⟨hlt, -⟩ := List.getElem?_eq_some_iff.mp hrecord
    rw [List.getElem?_range' hlt, Option.some.injEq] at hnumber
    omega
  increasing := by
    have hsub := hw.received.map (·.seq)
    rw [hw.numbers_split.1] at hsub
    exact List.Pairwise.sublist hsub List.pairwise_lt_range'
  missed := hw.missed

end Polled

/-- However publications and polls follow each other, the n-th record has the number n, a client
gets every record at most once and in order, and it misses just the oldest records of those that
were published between two polls, if they were more than are kept. Whether the output file can be
written makes no difference to what is kept and how it is numbered. -/
theorem polled_in_order {path : Option Path} {history : Int} {w : Polled}
    (hrun : Polled.Run { sink := { path, history }, host := h } w) :
    w.sink.capacity = (max history 1).toNat ∧ w.Accounts ∧
      ∀ (s : Sink) (h : Host) (result : JobResult),
        (s.publish h result).1.memory = ({ s with path := none }.publish h result).1.memory := by
  refine ⟨hrun.capacity, (hrun.sound (Polled.sound_start path history h)).accounts, ?_⟩
  intro s h result
  obtain ⟨hseq, hrecords, -⟩ := publish_sink s h result
  obtain ⟨hseq', hrecords', -⟩ := publish_sink { s with path := none } h result
  unfold memory
  rw [hseq, hseq', hrecords, hrecords']
  rfl

/-- A host on which the directory of the output file is a file. -/
def obstructedHost : Host where
  machine := .start ⟨[(["out"], .file [] false)]⟩
  cwd := []
  env := []
  wire := .down

def blockedSink : Sink where
  path := some ⟨.root, ["out", "last.json"]⟩
  history := 0

def cleanedResult (job : String) : JobResult :=
  { jobId := job, kind := "clean", status := "cleaned" }

theorem writeFile_obstructed (text : String) :
    writeFile obstructedHost.machine.tree obstructedHost.cwd ⟨.root, ["out", "last.json"]⟩
      ⟨.root, ["out", "last.tmp"]⟩ text =
        (obstructedHost.machine.tree, some ⟨.entryExists, "'/out'"⟩) := by
  have hmake : obstructedHost.machine.tree.makeDirectories obstructedHost.cwd
      (Path.parent ⟨.root, ["out", "last.json"]⟩) =
        (obstructedHost.machine.tree, some ⟨.entryExists, "'/out'"⟩) := by
    cbv
  unfold writeFile
  rw [hmake]

/-- Where the output file cannot be written, a record is published all the same. -/
theorem publish_obstructed (hpath : s.path = blockedSink.path) (hlisteners : s.listeners = [])
    (result : JobResult) : ∃ h', s.publish obstructedHost result =
      ((s.enter result ⟨0⟩).1, h', .ok ⟨s.seq + 1, result, ⟨0⟩⟩) := by
  have hscratch : Path.withSuffix? ⟨.root, ["out", "last.json"]⟩ ".tmp" =
      some ⟨.root, ["out", "last.tmp"]⟩ := by
    cbv
  have hsystem : FileError.entryExists.isSystem = true := rfl
  obtain ⟨h', hstore⟩ : ∃ h', (s.enter result ⟨0⟩).1.store obstructedHost
      (s.enter result ⟨0⟩).2 = (h', .ok ()) := by
    have hfile : (s.enter result ⟨0⟩).1.path = some ⟨.root, ["out", "last.json"]⟩ := hpath
    simp only [store, hfile, hscratch, writeFile_obstructed, hsystem, if_true]
    exact ⟨_, rfl⟩
  have htell (record : OutputRecord) :
      (s.enter result ⟨0⟩).1.tell record = (s.enter result ⟨0⟩).1 := by
    simp [tell, enter, hlisteners]
  have hnow : obstructedHost.now = ⟨0⟩ := rfl
  refine ⟨(s.enter result ⟨0⟩).1.noteFailures h' (s.enter result ⟨0⟩).2, ?_⟩
  simp only [publish, hnow, hstore, htell]
  rfl

/-- The client was too late for the first of three records, and no file could be written. -/
theorem polled_in_order_threeRecords :
    ∃ w, Polled.Run { sink := blockedSink, host := obstructedHost } w ∧ w.Accounts ∧
      w.published.map (·.result.jobId) = ["a", "b", "c"] ∧
      w.received.map (·.result.jobId) = ["b", "c"] := by
  have publishes {w₀ w : Polled} (result : JobResult) (hrun : Polled.Run w₀ w)
      (hpath : w.sink.path = blockedSink.path) (hlisteners : w.sink.listeners = []) :
      ∃ host, Polled.Run w₀ ⟨(w.sink.enter result ⟨0⟩).1, host, w.polls,
        w.unseen ++ [⟨w.sink.seq + 1, result, ⟨0⟩⟩]⟩ := by
    obtain ⟨_, hresult⟩ := publish_obstructed hpath hlisteners result
    have hrun := (hrun.tail (.aside obstructedHost)).tail
      (.publish _ _ (congrArg (·.2.2) hresult))
    rw [hresult] at hrun
    exact ⟨_, hrun⟩
  have hstart := Relation.ReflTransGen.refl (r := Polled.Step)
    (a := { sink := blockedSink, host := obstructedHost })
  obtain ⟨_, hrun⟩ := publishes (cleanedResult "a") hstart rfl rfl
  obtain ⟨_, hrun⟩ := publishes (cleanedResult "b") hrun rfl rfl
  obtain ⟨_, hrun⟩ := publishes (cleanedResult "c") (hrun.tail .poll) rfl rfl
  exact ⟨_, hrun.tail .poll, (polled_in_order (hrun.tail .poll)).2.1, rfl, rfl⟩

end SnippetRunner.Sink
