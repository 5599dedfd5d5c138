import SnippetRunner.Machine.Step
import SnippetRunner.Proofs.Success

/-!
What a machine keeps while its children take their turns. It counts on from where it was, so that
no number is given twice, and no child changes its number or its group: what is so of the places
of all children, present and to come, stays so. The clock moves only between two rounds, and in
time it reaches any limit.
-/
namespace SnippetRunner

def Child.place (c : Child) : Nat × Nat := (c.id, c.group)

namespace Machine

variable {P : Nat × Nat → Prop} {m mid m' : Machine} {c c' : Child}

def Numbered (m : Machine) : Prop := ∀ c ∈ m.children, c.id < m.nextId

structure Placed (P : Nat × Nat → Prop) (m : Machine) : Prop where
  children : ∀ c ∈ m.children, P c.place
  later : ∀ id group, m.nextId ≤ id → P (id, group)

structure Onward (P : Nat × Nat → Prop) (m m' : Machine) : Prop where
  nextId : m.nextId ≤ m'.nextId
  numbered : m.Numbered → m'.Numbered
  placed : m.Placed P → m'.Placed P

structure Within (P : Nat × Nat → Prop) (m m' : Machine) : Prop extends Onward P m m' where
  clock : m'.clock = m.clock
  beats : m'.beats = m.beats

/-- Nothing happens to the children, but numbers may be given to pipes and sinks. -/
structure Still (m m' : Machine) : Prop where
  children : m'.children = m.children
  nextId : m.nextId ≤ m'.nextId
  clock : m'.clock = m.clock
  beats : m'.beats = m.beats

section Relations

theorem Onward.refl (m : Machine) : Onward P m m := ⟨Nat.le_refl _, id, id⟩

theorem Onward.trans (h : Onward P m mid) (h' : Onward P mid m') : Onward P m m' :=
  ⟨Nat.le_trans h.nextId h'.nextId, h'.numbered ∘ h.numbered, h'.placed ∘ h.placed⟩

theorem Within.refl (m : Machine) : Within P m m := ⟨.refl m, rfl, rfl⟩

theorem Within.trans (h : Within P m mid) (h' : Within P mid m') : Within P m m' :=
  ⟨h.toOnward.trans h'.toOnward, h'.clock.trans h.clock, h'.beats.trans h.beats⟩

theorem placed_any (m : Machine) : m.Placed fun _ => True :=
  ⟨fun _ _ => trivial, fun _ _ _ => trivial⟩

theorem Still.refl (m : Machine) : Still m m := ⟨rfl, Nat.le_refl _, rfl, rfl⟩

theorem Still.trans (h : Still m mid) (h' : Still mid m') : Still m m' :=
  ⟨h'.children.trans h.children, Nat.le_trans h.nextId h'.nextId, h'.clock.trans h.clock,
    h'.beats.trans h.beats⟩

theorem onward_of_children (hchildren : m'.children = m.children)
    (hnext : m.nextId ≤ m'.nextId) : Onward P m m' where
  nextId := hnext
  numbered h c hc := Nat.lt_of_lt_of_le (h c (hchildren ▸ hc)) hnext
  placed h :=
    ⟨fun c hc => h.children c (hchildren ▸ hc), fun id group hle =>
      h.later id group (Nat.le_trans hnext hle)⟩

theorem Still.within (h : Still m m') : Within P m m' :=
  ⟨onward_of_children h.children h.nextId, h.clock, h.beats⟩

/-- Children are changed one by one. -/
theorem within_map {f : Child → Child} (hid : ∀ x, (f x).id = x.id)
    (hplace : ∀ x, P x.place → P (f x).place) :
    Within P m { m with children := m.children.map f } := by
  refine ⟨⟨Nat.le_refl _, fun h x hx => ?_, fun h => ⟨fun x hx => ?_, h.later⟩⟩, rfl, rfl⟩
  · obtain ⟨old, hold, rfl⟩ := List.mem_map.mp hx
    exact (hid old).symm ▸ h old hold
  · obtain ⟨old, hold, rfl⟩ := List.mem_map.mp hx
    exact hplace old (h.children old hold)

end Relations

section Basic

variable (m) (c)

theorem put_within (hc : P c.place) : Within P m (m.put c) := by
  refine within_map (fun x => ?_) fun x hx => ?_
  · split
    · next hid => exact (beq_iff_eq.mp hid).symm
    · rfl
  · split
    · exact hc
    · exact hx

theorem endChild_within (id : Nat) (ending : Ending) : Within P m (m.endChild id ending) := by
  refine within_map (fun x => ?_) fun x hx => ?_
  · split <;> rfl
  · split <;> exact hx

theorem killGroup_within (group signal : Nat) : Within P m (m.killGroup group signal) := by
  refine within_map (fun x => ?_) fun x hx => ?_
  · split <;> rfl
  · split <;> exact hx

theorem forget_within (ids : List Nat) : Within P m (m.forget ids) where
  nextId := Nat.le_refl _
  numbered h x hx := h x ((List.mem_filter.mp hx).1)
  placed h := ⟨fun x hx => h.children x ((List.mem_filter.mp hx).1), h.later⟩
  clock := rfl
  beats := rfl

/-- A new child takes the next number. -/
theorem append_within (hid : c.id = m.nextId) :
    Within P m { m with children := m.children ++ [c], nextId := m.nextId + 1 } where
  nextId := Nat.le_succ _
  numbered h x hx := by
    rcases List.mem_append.mp hx with hold | hnew
    · exact Nat.lt_succ_of_lt (h x hold)
    · rw [List.mem_singleton.mp hnew, hid]
      exact Nat.lt_succ_self _
  placed h := by
    refine ⟨fun x hx => ?_, fun id group hle => h.later id group (Nat.le_of_succ_le hle)⟩
    rcases List.mem_append.mp hx with hold | hnew
    · exact h.children x hold
    · rw [List.mem_singleton.mp hnew]
      exact h.later _ _ (Nat.le_of_eq hid.symm)
  clock := rfl
  beats := rfl

theorem fork_within (tasks : List Task) (streams : Streams) :
    Within P m (m.fork c tasks streams).1 := append_within m _ rfl

theorem newPipe_still (octets : List UInt8) : Still m (m.newPipe octets).1 :=
  ⟨rfl, Nat.le_succ _, rfl, rfl⟩

theorem newSink_still (limit : Int) : Still m (m.newSink limit).1 :=
  ⟨rfl, Nat.le_succ _, rfl, rfl⟩

theorem setPipe_still (id : Nat) (octets : List UInt8) : Still m (m.setPipe id octets) :=
  ⟨rfl, Nat.le_refl _, rfl, rfl⟩

theorem withTree_still (tree : FileTree) : Still m { m with tree } :=
  ⟨rfl, Nat.le_refl _, rfl, rfl⟩

end Basic

section Files

variable {ch : Channel} {octets left : List UInt8} {p : Path} {cwd : Location}

theorem write_still (h : m.write ch octets = .taken m' left) : Still m m' := by
  have hother (tree : FileTree) (sinks : List (Nat × Capture)) :
      Still m { m with tree, sinks } := ⟨rfl, Nat.le_refl _, rfl, rfl⟩
  unfold write at h
  grind [setPipe_still, Still.refl]

theorem read_still {most : Nat} (h : m.read ch most = .octets m' octets) : Still m m' := by
  unfold read at h
  grind [setPipe_still, Still.refl]

theorem openForReading_still (h : m.openForReading cwd p = .ok (m', ch)) : Still m m' := by
  unfold openForReading at h
  grind [newPipe_still, Still.refl]

theorem openForWriting_still {appended : Bool}
    (h : m.openForWriting cwd p appended = .ok (m', ch)) : Still m m' := by
  unfold openForWriting at h
  split at h
  · cases h
    exact .refl m
  · dsimp only at h
    split at h
    all_goals
      obtain ⟨tree, -, h⟩ := Success.bind_eq_ok.mp h
      split at h
      · cases h
        exact withTree_still m tree
      · cases h

end Files

section Launching

variable (m) (c)

theorem copyTasks_still (files : List String) (failed : Bool) :
    Still m (copyTasks m c files failed).1 := by
  induction files generalizing m failed with
  | nil => exact .refl m
  | cons name rest ih =>
    rw [copyTasks]
    split
    · exact ih m failed
    · split
      · next hopen => exact (openForReading_still hopen).trans (ih _ failed)
      · exact ih m true

theorem filterTasks_still (program : String) (files : List String) (task : Task) :
    Still m (filterTasks m c program files task).1 := by
  unfold filterTasks
  split
  · exact .refl m
  · split
    · next hopen => exact openForReading_still hopen
    · exact .refl m
  · exact newPipe_still m _

theorem changeEach_still (change : FileTree → String → Except FileError FileTree)
    (complaint : String → FileError → Option String) (operands : List String) (failed : Bool) :
    Still m (changeEach m change complaint operands failed).1 := by
  induction operands generalizing m failed with
  | nil => exact .refl m
  | cons o rest ih =>
    rw [changeEach]
    split
    · exact (withTree_still m _).trans (ih _ failed)
    · split
      · exact ih m failed
      · exact ih m true

theorem launchShell_eq (dialect : Dialect) (argv : List String) :
    (launchShell m c dialect argv).1 = m ∧
      (launchShell m c dialect argv).2.place = c.place ∧
      (launchShell m c dialect argv).2.ending = c.ending := by
  unfold launchShell
  generalize argv.drop 1 = args
  dsimp only
  fun_induction launchShell.start with
  | case4 _ _ _ _ _ ih => exact ih
  | _ => exact ⟨rfl, rfl, rfl⟩

theorem openAll_still (cwd : Location) (appended : Bool) (files : List String)
    (channels : List Channel) :
    Still m (files.foldl
      (fun (acc : Machine × List Channel) file =>
        match acc.1.openForWriting cwd (.ofString file) appended with
        | .ok (m, ch) => (m, acc.2 ++ [ch])
        | .error _ => acc)
      (m, channels)).1 := by
  refine List.foldlRecOn (motive := fun acc : Machine × List Channel =>
    Still m acc.1) files _ (.refl m) fun acc hacc file _ => ?_
  split
  · next hopen => exact hacc.trans (openForWriting_still hopen)
  · exact hacc

/-- A program is loaded into a child, which has not ended thereby. -/
theorem launch_child (image : Image) :
    (launch m c image).2.place = c.place ∧ (launch m c image).2.ending = c.ending := by
  unfold launch
  dsimp only
  split
  case h_1 | h_2 => exact (launchShell_eq ..).2
  all_goals first
    | exact ⟨rfl, rfl⟩
    | (split <;> exact ⟨rfl, rfl⟩)

theorem launch_still (image : Image) : Still m (launch m c image).1 := by
  unfold launch
  dsimp only
  split
  case h_1 | h_2 =>
    rw [(launchShell_eq ..).1]
    exact .refl m
  all_goals first
    | exact .refl m
    | exact copyTasks_still ..
    | exact filterTasks_still ..
    | exact changeEach_still ..
    | exact openAll_still ..
    | (split <;> exact .refl m)

end Launching

section Children

variable (c)

theorem foldl_place {α : Type} {f : Child → α → Child} (hf : ∀ c a, (f c a).place = c.place)
    (l : List α) : (l.foldl f c).place = c.place :=
  List.foldlRecOn (motive := fun c' : Child => c'.place = c.place) l _ rfl
    fun c' hc' a _ => (hf c' a).trans hc'

theorem pushLenient_place (first then_ : List Task) :
    (c.pushLenient first then_).place = c.place := by
  unfold Child.pushLenient
  split <;> rfl

theorem unwind_place (isMark : Task → Bool) : (unwind isMark c).place = c.place := by
  unfold unwind
  split
  · refine foldl_place _ (fun c t => ?_) _
    split <;> rfl
  · rfl

theorem breakLoops_place (n : Nat) : (breakLoops n c).place = c.place := by
  induction n generalizing c with
  | zero => rfl
  | succ n ih =>
    rw [breakLoops]
    split
    · refine (ih _).trans ?_
      split <;> exact unwind_place c _
    · exact unwind_place c _

theorem assignArgument_place (exported : Bool) (arg : String) :
    (assignArgument c exported arg).place = c.place := by
  unfold assignArgument
  cases Settings.cutAt '=' arg <;> dsimp only <;> split <;> rfl

theorem setOptions_place (args : List String) : (setOptions c args).place = c.place := by
  unfold setOptions
  dsimp only
  split
  · rfl
  · split <;> rfl
  · rfl

theorem setTrap_place (args : List String) : (setTrap c args).place = c.place := by
  unfold setTrap
  split <;> rfl

theorem assignAll_place (assignments : List (String × String)) :
    (assignments.foldl (fun c a => c.assign a.1 a.2) c).place = c.place := by
  refine foldl_place c (fun c a => ?_) assignments
  rfl

theorem assignLine_place (names : List String) (line : List UInt8) (status : Nat) :
    (assignLine c names line status).place = c.place := by
  exact assignAll_place c _

end Children

def With (P : Nat × Nat → Prop) (m : Machine) (r : Machine × Child) : Prop :=
  Within P m r.1 ∧ P r.2.place

section Commands

variable (m) (c)

variable {m c} in
theorem place_of_find {id : Nat} (hm : m.Placed P) (h : m.find? id = some c) : P c.place :=
  hm.children c (List.mem_of_find?_eq_some h)

theorem signalChild_within (hm : m.Placed P) (id signal : Nat) :
    Within P m (signalChild m id signal) := by
  unfold signalChild
  split
  · next x _ h _ =>
    have hx : P x.place := place_of_find hm h
    exact put_within m _ hx
  · next x h _ =>
    have hx : P x.place := place_of_find hm h
    split
    · exact .refl m
    · split
      · exact put_within m _ hx
      · exact endChild_within m _ _
  · exact .refl m

theorem signalTarget_within {signal : Nat} {target : String} (hm : m.Placed P)
    (h : signalTarget m c signal target = some m') : Within P m m' := by
  unfold signalTarget at h
  split at h
  · cases h
  split at h
  · split at h
    · cases h
      exact signalChild_within m hm _ _
    · cases h
  · cases h
    exact List.foldlRecOn (motive := fun m' : Machine => Within P m m') _ _ (.refl m)
      fun m' hm' x _ => hm'.trans (signalChild_within m' (hm'.placed hm) _ _)

theorem runKill_with (hm : m.Placed P) (hc : P c.place) (args : List String) :
    With P m (runKill m c args) := by
  unfold runKill
  dsimp only
  split
  · exact ⟨put_within m c hc, hc⟩
  · refine List.foldlRecOn (motive := fun acc : Machine × Child => With P m acc) _ _ ?_
      fun acc hacc target _ => ?_
    · exact ⟨put_within m c hc, hc⟩
    · split
      · next hsent =>
        have hwithin := hacc.1.trans (signalTarget_within _ _ (hacc.1.placed hm) hsent)
        refine ⟨hwithin, ?_⟩
        cases hfound : Machine.find? _ c.id with
        | none => exact hacc.2
        | some x => exact place_of_find (hwithin.placed hm) hfound
      · exact ⟨hacc.1.trans (put_within _ _ hacc.2), hacc.2⟩

theorem runBuiltin_with (hm : m.Placed P) (hc : P c.place) (name : String)
    (args : List String) : With P m (runBuiltin m c name args) := by
  have hsame {c' : Child} (h : c'.place = c.place) : With P m (m, c') :=
    ⟨.refl m, h ▸ hc⟩
  unfold runBuiltin runBuiltin.include_ runBuiltin.test runBuiltin.cannotEnter
  dsimp only
  split
  case h_18 => exact runKill_with m { c with status := 0 } hm hc args
  case h_11 => exact hsame (foldl_place c (fun c a => assignArgument_place c true a) args)
  case h_12 => exact hsame (foldl_place c (fun c a => assignArgument_place c false a) args)
  case h_14 => exact hsame (setOptions_place ..)
  case h_15 => exact hsame (setTrap_place ..)
  case h_24 => exact hsame (breakLoops_place ..)
  case h_25 => exact hsame ((unwind_place ..).trans (breakLoops_place ..))
  case h_23 =>
    split
    · exact hsame (unwind_place c _)
    · exact hsame rfl
  all_goals first
    | with_reducible exact hsame rfl
    | (split <;> first | exact hsame rfl | (split <;> exact hsame rfl))

end Commands

section Running

variable (m) (c)

theorem become_with (hc : P c.place) (argv : List String) : With P m (become m c argv) := by
  unfold become
  dsimp only
  split
  · exact ⟨(launch_still m c _).within, (launch_child m c _).1 ▸ hc⟩
  · obtain ⟨hmachine, hplace, -⟩ := launchShell_eq m { c with status := 0 } c.dialect _
    refine ⟨?_, ?_⟩
    · rw [hmachine]
      exact .refl m
    · rw [hplace]
      exact hc
  · exact ⟨.refl m, hc⟩

theorem runProgram_within (hm : m.Placed P) (hc : P c.place) (argv : List String)
    (extra : List (String × String)) (streams : Streams) :
    Within P m (runProgram m c argv extra streams) := by
  have hforked : Within P m ((m.fork c [] streams).1.put (c.push [.await [m.nextId]])) :=
    (fork_within m c [] streams).trans (put_within _ _ hc)
  unfold runProgram
  dsimp only
  split
  · exact hforked
  · next child hfound =>
    have hchild : P child.place := place_of_find (hforked.placed hm) hfound
    obtain ⟨hbecome, hplace⟩ := become_with
      ((m.fork c [] streams).1.put (c.push [.await [m.nextId]]))
      { child with vars := exportedVariables c extra } hchild argv
    exact hforked.trans (hbecome.trans (put_within _ _ hplace))

theorem redirect_still {redirections : List Redirection} {streams streams' : Streams}
    (h : redirect m c redirections streams = .ok (m', streams')) : Still m m' := by
  induction redirections generalizing m streams with
  | nil =>
    cases h
    exact .refl _
  | cons r rest ih =>
    rw [redirect] at h
    split at h
    · exact ih _ h
    · exact (newPipe_still _ _).trans (ih _ h)
    · split at h
      · next hopen => exact (openForReading_still hopen).trans (ih _ h)
      · cases h
    all_goals
      split at h
      · next hopen => exact (openForWriting_still hopen).trans (ih _ h)
      · cases h

theorem runSimple_within (hm : m.Placed P) (hc : P c.place)
    (assignments : List (String × String)) (words : List String)
    (redirections : List Redirection) :
    Within P m (runSimple m c assignments words redirections) := by
  unfold runSimple
  split
  · exact put_within m _ hc
  · next opened _ hopen =>
    have hopened : Within P m opened := (redirect_still m c hopen).within
    refine hopened.trans ?_
    split
    · refine put_within _ _ ?_
      rw [assignAll_place]
      exact hc
    · exact put_within _ _ hc
    · obtain ⟨hbecome, hplace⟩ :=
        become_with opened { c with streams := _, vars := _, tasks := [] } hc _
      exact hbecome.trans (put_within _ _ hplace)
    · split
      · exact put_within _ _ hc
      · generalize (if _ == "command" then _ else _ : String × List String) = command
        dsimp only
        split
        · obtain ⟨hbuiltin, hplace⟩ := runBuiltin_with opened
            { c.push [.restore c.streams] with streams := _ } (hopened.placed hm) hc command.1
            command.2
          split
          · exact hbuiltin.trans (put_within _ _ hplace)
          · exact hbuiltin
        · exact runProgram_within opened c (hopened.placed hm) hc _ _ _

theorem perform_within {command : Shell.Command} {outputs : List String} (hm : m.Placed P)
    (hc : P c.place) (h : perform m c command outputs = .ok m') : Within P m m' := by
  unfold perform at h
  dsimp only at h
  split at h
  · obtain ⟨_, -, h⟩ := Success.bind_eq_ok.mp h
    obtain ⟨_, -, h⟩ := Success.bind_eq_ok.mp h
    obtain ⟨_, -, h⟩ := Success.bind_eq_ok.mp h
    cases h
    refine runSimple_within m _ hm ?_ _ _ _
    split <;> exact hc
  · obtain ⟨_, -, h⟩ := Success.bind_eq_ok.mp h
    cases h
    exact put_within m _ hc
  · obtain ⟨_, -, h⟩ := Success.bind_eq_ok.mp h
    obtain ⟨_, -, h⟩ := Success.bind_eq_ok.mp h
    cases h
    exact put_within m _ hc
  · cases h
    exact put_within m c hc

theorem evaluate_within (hm : m.Placed P) (hc : P c.place) (command : Shell.Command)
    (outputs : List String) : Within P m (evaluate m c command outputs) := by
  unfold evaluate
  split
  · exact (newPipe_still m _).within.trans ((fork_within _ _ _ _).trans (put_within _ _ hc))
  · split
    · next hperformed => exact perform_within m c hm hc hperformed
    · exact put_within m _ hc

theorem startStages_within (input : Channel) (stages : List Shell.Command) :
    Within P m (startStages m c input stages).1 := by
  induction stages generalizing m input with
  | nil => exact .refl m
  | cons stage rest ih =>
    cases rest with
    | nil => exact fork_within m c _ _
    | cons next rest =>
      rw [startStages.eq_3 _ _ _ _ _ (by simp)]
      exact (newPipe_still m _).within.trans ((fork_within _ c _ _).trans (ih _ _))

theorem openCompound_still {redirects : List Shell.Redirect} {streams : Streams}
    (h : openCompound m c redirects = .ok (m', streams)) : Still m m' := by
  unfold openCompound at h
  split at h
  · cases h
  · exact redirect_still m c h

theorem unfold_within (hm : m.Placed P) (hc : P c.place) (command : Shell.Command) :
    Within P m (unfold m c command) := by
  have hchecked : P (if c.strict then c.push [.check] else c).place := by split <;> exact hc
  have hlenient (first then_ : List Task) : P (c.pushLenient first then_).place := by
    rw [pushLenient_place]
    exact hc
  unfold Machine.unfold
  dsimp only
  split
  case h_2 => exact evaluate_within m _ hm hchecked _ _
  case h_3 | h_4 => exact evaluate_within m c hm hc _ _
  case h_5 => exact (startStages_within m c _ _).trans (put_within _ _ hchecked)
  case h_6 | h_8 | h_9 | h_13 | h_14 => exact put_within m _ (hlenient _ _)
  case h_10 => exact (fork_within m c _ _).trans (put_within _ _ hc)
  case h_11 =>
    split
    · exact put_within m _ hc
    · next hopen => exact (openCompound_still m c hopen).within.trans (put_within _ _ hc)
  case h_12 =>
    split
    · exact put_within m _ hc
    · next hopen =>
      exact (openCompound_still m c hopen).within.trans
        ((fork_within _ c _ _).trans (put_within _ _ hchecked))
  all_goals exact put_within m _ hc

end Running

section Steps

variable (m) (c)

def Progress.Within (P : Nat × Nat → Prop) (m : Machine) : Progress → Prop
  | .moved m' => Machine.Within P m m'
  | .blocked _ => True

theorem writeOn_within (hc : P c.place) (toError : Bool) (octets : List UInt8) :
    (writeOn m c toError octets).Within P m := by
  unfold writeOn
  dsimp only
  split
  · exact put_within m c hc
  · split
    · next hwrite =>
      split
      all_goals exact (write_still hwrite).within.trans (put_within _ _ hc)
    · trivial
    · exact (put_within m c hc).trans (endChild_within _ _ _)

theorem readOn_within (hc : P c.place) (most : Nat) (got : List UInt8 → List Task)
    (atEnd : List Task) : (readOn m c most got atEnd).Within P m := by
  unfold readOn
  split
  · next hread => exact (read_still hread).within.trans (put_within _ _ hc)
  · exact put_within m _ hc
  · trivial

theorem copyToAll_still (copies : List Channel) (octets : List UInt8) :
    Still m (copies.foldl (fun m ch => step.copyTo m ch octets) m) := by
  refine List.foldlRecOn (motive := fun m' : Machine => Still m m') copies _ (.refl m)
    fun m' hm' ch _ => ?_
  unfold step.copyTo
  split
  · next hwrite => exact hm'.trans (write_still hwrite)
  · exact hm'

theorem afterAwait_within (hc : P c.place) (ids : List Nat) :
    Within P m (m.afterAwait c ids) :=
  (forget_within m ids).trans (put_within _ _ hc)

theorem step_within (hm : m.Placed P) (hc : P c.place) (t : Task) :
    (step m c t).Within P m := by
  unfold step
  dsimp only
  split
  case h_1 =>
    split
    · exact put_within m c hc
    · split <;> exact put_within m _ hc
  case h_2 => exact unfold_within m c hm hc _
  case h_3 => exact evaluate_within m c hm hc _ _
  case h_4 =>
    split
    · next hread => exact (read_still hread).within.trans (put_within _ _ hc)
    · trivial
    · split
      · exact (forget_within m _).trans (put_within _ _ hc)
      · trivial
  case h_12 =>
    refine put_within m _ ?_
    rw [pushLenient_place]
    exact hc
  case h_17 =>
    split
    · exact afterAwait_within m c hc _
    · trivial
  case h_18 =>
    split
    · exact (forget_within m _).trans (put_within _ _ hc)
    · trivial
  case h_19 => exact writeOn_within m c hc _ _
  case h_21 =>
    split
    · exact put_within m _ hc
    · exact endChild_within m _ _
  case h_23 =>
    split
    · next hread =>
      exact (read_still hread).within.trans
        ((copyToAll_still _ _ _).within.trans (put_within _ _ hc))
    · exact put_within m c hc
    · trivial
  case h_24 | h_25 =>
    split
    · exact put_within m _ hc
    · exact readOn_within m c hc _ _ _
  case h_26 => exact readOn_within m c hc _ _ _
  case h_27 =>
    split
    · next hread => exact (read_still hread).within.trans (put_within _ _ hc)
    · exact put_within m _ hc
    · trivial
  case h_29 =>
    have hline (names : List String) (line : List UInt8) (status : Nat) :
        P (assignLine c names line status).place := by
      rw [assignLine_place]
      exact hc
    split
    · next hread =>
      split
      · exact (read_still hread).within.trans (put_within _ _ (hline ..))
      · exact (read_still hread).within.trans (put_within _ _ hc)
    · next hread => exact (read_still hread).within.trans (put_within _ _ hc)
    · exact put_within m _ (hline ..)
    · trivial
  all_goals first
    | exact put_within m _ hc
    | (split <;> first | exact put_within m _ hc | trivial)

end Steps

section Time

variable (m)

theorem turn_within (hm : m.Placed P) (fuel id : Nat) (moved : Bool) :
    Within P m (turn fuel m id moved).1 := by
  induction fuel generalizing m moved with
  | zero => exact .refl m
  | succ fuel ih =>
    rw [turn]
    split
    · exact .refl m
    · next c hfound =>
      have hc : P c.place := place_of_find hm hfound
      split
      · exact .refl m
      · split
        · have hput : Within P m (m.put { c with tasks := [.quit none] }) := put_within m _ hc
          exact hput.trans (ih _ (hput.placed hm) true)
        · next t rest _ =>
          have hstep : (step m { c with tasks := rest } t).Within P m :=
            step_within m { c with tasks := rest } hm hc t
          split
          · next hmoved =>
            rw [hmoved] at hstep
            exact Within.trans hstep (ih _ (hstep.placed hm) true)
          · exact .refl m

theorem round_within (hm : m.Placed P) : Within P m m.round.1 := by
  unfold round
  refine List.foldlRecOn (motive := fun acc : Machine × Bool × Option Nat =>
    Within P m acc.1) m.children _ (.refl m) fun acc hacc c _ => ?_
  exact hacc.trans (turn_within acc.1 (hacc.placed hm) turnLength c.id false)

theorem advance_onward (hm : m.Placed P) (fuel : Nat) (ids : List Nat) (limit : Nat) :
    Onward P m (advance fuel m ids limit) := by
  induction fuel generalizing m with
  | zero => exact .refl m
  | succ fuel ih =>
    have hround := (round_within m hm).toOnward
    rw [advance]
    split
    · exact .refl m
    · dsimp only
      split
      · have hbeat : Onward P m m.round.1.beat := by
          refine hround.trans ?_
          unfold beat
          split <;> exact onward_of_children rfl (Nat.le_refl _)
        exact hbeat.trans (ih _ (hbeat.placed hm))
      · have hpassed (clock : Nat) : Onward P m { m.round.1 with clock } :=
          hround.trans (onward_of_children rfl (Nat.le_refl _))
        exact (hpassed _).trans (ih _ ((hpassed _).placed hm))

theorem runUntil_onward (hm : m.Placed P) (ids : List Nat) (limit : Nat) :
    Onward P m (m.runUntil ids limit) := advance_onward m hm _ ids limit

def roundsTo (m : Machine) (limit : Nat) : Nat :=
  roundsPerTick * (limit - m.clock) - min m.beats (roundsPerTick - 1)

theorem roundsTo_beat {limit : Nat} (hbefore : m.clock < limit) :
    m.beat.roundsTo limit < m.roundsTo limit := by
  unfold beat roundsTo roundsPerTick
  split <;> dsimp only <;> omega

/-- A machine whose children are not waited for goes on to the limit. -/
theorem advance_clock {fuel limit : Nat} (hfuel : m.roundsTo limit ≤ fuel) :
    limit ≤ (advance fuel m [] limit).clock := by
  induction fuel generalizing m with
  | zero =>
    unfold roundsTo roundsPerTick at hfuel
    rw [advance]
    omega
  | succ fuel ih =>
    have hround : Within (fun _ => True) m m.round.1 :=
      round_within m (placed_any m)
    rw [advance]
    split
    · next hdone => simpa using hdone
    · next hgoes =>
      have hbefore : m.clock < limit := by simpa using hgoes
      dsimp only
      split
      · refine ih _ ?_
        have hbeat := roundsTo_beat m.round.1 (hround.clock.symm ▸ hbefore)
        have hsame : m.round.1.roundsTo limit = m.roundsTo limit := by
          rw [roundsTo, roundsTo, hround.clock, hround.beats]
        omega
      · have hclock := hround.clock
        have hbeats := hround.beats
        refine ih _ ?_
        unfold roundsTo roundsPerTick at hfuel ⊢
        dsimp only
        omega

theorem runUntil_clock (limit : Nat) : limit ≤ (m.runUntil [] limit).clock := by
  refine advance_clock m ?_
  unfold roundsTo
  omega

end Time
end Machine
end SnippetRunner
