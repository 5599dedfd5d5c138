import Mathlib.Data.List.TakeWhile
import SnippetRunner.Proofs.Message.Notifications
import SnippetRunner.Proofs.Server.Custody
import SnippetRunner.Proofs.Server.Rejection
import SnippetRunner.Proofs.Server.Serving
import SnippetRunner.Proofs.Server.Winding
import SnippetRunner.Transport.Lines

/-!
Lines that a server is given. A line that asks for a run, a cleaning or the end is carried out
when its turn comes; any other line leaves nothing but an entry of the log. There is one way in
which a line ends the reading before the lines do: its numerals or its nesting are without
bound, so that no value is made of it at all. When the lines have ended all jobs are told to
stop, no new child is accepted, and the queue runs out.
-/
namespace SnippetRunner.Server

open Message

inductive Command
  | run (params : RunParams)
  | clean
  | terminate
  deriving DecidableEq, Repr

namespace Command

def apply (s : Server) : Command → Server
  | run params => (s.submitRun params.toRequest).1
  | clean => s.submitClean.1
  | terminate => s.terminate

def kind? : Command → Option JobKind
  | run params => some (.run (some params.toRequest))
  | clean => some .clean
  | terminate => none

end Command

inductive Asks (i : Intake) : Json → Command → Prop
  | run {ms : Members} {n : Notification} {params : RunParams} :
    ms.lookup "method" = some (.str n.method) → Text.lower n.method = "run" →
    Given ms n.params → i.runOf n = .ok params → Asks i (.obj ms) (.run params)
  | clean {ms : Members} {n : Notification} :
    ms.lookup "method" = some (.str n.method) → Text.lower n.method = "clean" →
    Given ms n.params → Asks i (.obj ms) .clean
  | terminate {ms : Members} {n : Notification} :
    ms.lookup "method" = some (.str n.method) → Text.lower n.method = "terminate" →
    Given ms n.params → Asks i (.obj ms) .terminate

/-- A line asks for something; blanks around it do not count. -/
def LineAsks (i : Intake) (line : String) (c : Command) : Prop :=
  ∃ v, Json.read i.depth (Text.strip line) = .ok v ∧ Asks i v c

/-- A numeral in a line is too long or its values are too deep inside each other. -/
def Unbounded (depth : Nat) (line : String) (f : Failure) : Prop :=
  ∃ fault, Json.read depth (Text.strip line) = .error fault ∧ (∀ e, fault ≠ .syntaxAt e) ∧
    f = .notJson fault (Text.strip line)

variable {i : Intake}

section Notifications

variable {v : Json} {n : Notification} {c : Command}

end Notifications

section OneLine

variable {line : String} {c : Command} {f : Failure}

end OneLine

section AllLines

variable {pause : Server → Server} {s s' : Server} {lines rest : List String} {line : String}
  {cs : List Command} {f : Failure}

/-- Lines were read one after the other, and what they ask for was carried out, each time once;
after every line there is a pause. -/
inductive Heeded (i : Intake) (pause : Server → Server) :
    Server → List String → List Command → Server → Prop
  | ended (s : Server) : Heeded i pause s [] [] s
  | carriedOut {s s' : Server} {line : String} {rest : List String} {c : Command}
      {cs : List Command} : LineAsks i line c →
    Heeded i pause (pause (c.apply s)) rest cs s' → Heeded i pause s (line :: rest) (c :: cs) s'
  | passedOver {s mid s' : Server} {line : String} {rest : List String} {cs : List Command} :
    (∀ c, ¬ LineAsks i line c) → Untouched s mid →
    Heeded i pause (pause mid) rest cs s' → Heeded i pause s (line :: rest) cs s'

/-- While a line is awaited the server works for a time and nothing else happens to it. -/
def OnlyWorks (pause : Server → Server) : Prop :=
  ∀ s, ∃ fuel goal limit, pause s = workFor fuel goal limit s

/-- What a schedule puts in the queue for some commands: their jobs, in order. -/
def PutsJobs (w w' : Watched) (cs : List Command) : Prop :=
  ∃ jobs : List Job, w'.puts = w.puts ++ jobs.map some ∧
    jobs.map (·.kind) = cs.filterMap Command.kind?

theorem PutsJobs.trans {w mid w' : Watched} {cs cs' : List Command} (h : PutsJobs w mid cs)
    (h' : PutsJobs mid w' cs') : PutsJobs w w' (cs ++ cs') := by
  obtain ⟨jobs, hputs, hkinds⟩ := h
  obtain ⟨jobs', hputs', hkinds'⟩ := h'
  refine ⟨jobs ++ jobs', ?_, ?_⟩
  · rw [hputs', hputs, List.map_append, List.append_assoc]
  · rw [List.map_append, hkinds, hkinds', List.filterMap_append]

theorem putsJobs_of_same {w w' : Watched} (h : w'.puts = w.puts) : PutsJobs w w' [] :=
  ⟨[], by simpa using h, rfl⟩

/-- A command that is carried out is a schedule that puts its job in the queue. -/
theorem Command.apply_run (c : Command) (w : Watched) :
    ∃ w', Run w w' ∧ w'.server = c.apply w.server ∧ PutsJobs w w' [c] := by
  have hsubmitted (kind : JobKind) : ∃ w', Run w w' ∧
      w'.server = (w.server.submitNamed kind).1 ∧
      ∃ job : Job, w'.puts = w.puts ++ [some job] ∧ job.kind = kind := by
    have hnamed : Step w _ :=
      .aside { w.server with named := w.server.named + 1 } ⟨rfl, rfl, rfl⟩
    obtain ⟨w', hrun, hserver, hputs⟩ := submit_run
      (w.after { w.server with named := w.server.named + 1 }) w.server.newName kind
    exact ⟨w', .head hnamed hrun, hserver, _, hputs, rfl⟩
  cases c with
  | run params =>
    obtain ⟨w', hrun, hserver, job, hputs, hkind⟩ :=
      hsubmitted (.run (some params.toRequest))
    exact ⟨w', hrun, hserver, [job], hputs, by simp [kind?, hkind]⟩
  | clean =>
    obtain ⟨w', hrun, hserver, job, hputs, hkind⟩ := hsubmitted .clean
    exact ⟨w', hrun, hserver, [job], hputs, by simp [kind?, hkind]⟩
  | terminate =>
    have hcancelled : Step w _ := .cancelAll true
    have hexited : Step (w.after (w.server.cancelAll true).1) _ :=
      .aside w.server.terminate ⟨rfl, rfl, rfl⟩
    exact ⟨_, .head hcancelled (.single hexited), rfl, [], by simp [Watched.after], rfl⟩

theorem Untouched.steady (h : Untouched s s') : Steady s s' := by
  rw [h.rest]
  exact ⟨rfl, rfl, rfl⟩

/-- Reading lines is a schedule that puts in the queue, in the order of the lines, the jobs for
which they ask. -/
theorem Heeded.run {path : Option Path} {w : Watched} (hpub : Sink.Publishes path)
    (hpause : OnlyWorks pause) (hserved : Served path w) (h : Heeded i pause s lines cs s')
    (hserver : w.server = s) : ∃ w', Run w w' ∧ w'.server = s' ∧ PutsJobs w w' cs := by
  have hpaused (mid : Watched) (hmid : Served path mid) :
      ∃ w', Run mid w' ∧ w'.server = pause mid.server ∧ PutsJobs mid w' [] := by
    obtain ⟨fuel, goal, limit, hworks⟩ := hpause mid.server
    obtain ⟨w', hrun, hw', hputs, -⟩ := workFor_run hpub fuel goal limit hmid
    exact ⟨w', hrun, hw'.trans hworks.symm, putsJobs_of_same hputs⟩
  induction h generalizing w with
  | ended s => exact ⟨w, .refl, hserver, putsJobs_of_same rfl⟩
  | carriedOut hc _ ih =>
    obtain ⟨done, hdone, hdoneServer, hjob⟩ := Command.apply_run _ w
    rw [hserver] at hdoneServer
    obtain ⟨mid, hmid, hmidServer, hnone⟩ := hpaused done (hserved.run hpub hdone)
    rw [hdoneServer] at hmidServer
    obtain ⟨w', hrun, hw', hjobs⟩ := ih ((hserved.run hpub hdone).run hpub hmid) hmidServer
    exact ⟨w', hdone.trans (hmid.trans hrun), hw', hjob.trans (hnone.trans hjobs)⟩
  | passedOver _ huntouched _ ih =>
    rw [← hserver] at huntouched
    have hdone : Step w _ := .aside _ huntouched.steady
    obtain ⟨mid, hmid, hmidServer, hnone⟩ := hpaused _ (hserved.step hpub hdone)
    obtain ⟨w', hrun, hw', hjobs⟩ := ih ((hserved.step hpub hdone).run hpub hmid) hmidServer
    exact ⟨w', .head hdone (hmid.trans hrun), hw',
      (putsJobs_of_same rfl).trans (hnone.trans hjobs)⟩

end AllLines

section HangingUp

variable {s s' : Server} {token : Nat}

/-- Cancelled tokens stay cancelled. -/
theorem Schedule.cancelled (h : Schedule s s') : s.host.cancelled ⊆ s'.host.cancelled := by
  induction h with
  | refl => exact List.Subset.refl _
  | tail _ hevent ih =>
    refine List.Subset.trans ih ?_
    cases hevent with
    | work k s' hmove => exact (stepWorker_follows hmove).cancelled ▸ List.Subset.refl _
    | start => exact (start_sends _).cancelled ▸ List.Subset.refl _
    | aside _ _ hsub => exact hsub

end HangingUp

section Serving

/-- To listen changes nothing of what is served. -/
theorem Served.listen {path : Option Path} (h : Served path { server := s }) :
    Served path { server := s.listen } :=
  ⟨h.numbered, h.path, h.lone, h.alive, h.records, h.order⟩

end Serving

section ManyDigits

end ManyDigits

end SnippetRunner.Server
