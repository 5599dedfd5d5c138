import SnippetRunner.Host

/-!
What a composed action comes to, by what its parts come to: each part succeeded, or one of
them failed, and the later ones started from what the earlier ones left.
-/
namespace SnippetRunner.Success

section Plain

variable {ε α β : Type} {x : Except ε α} {b : β}

theorem bind_eq_ok {f : α → Except ε β} :
    (x >>= f) = .ok b ↔ ∃ a, x = .ok a ∧ f a = .ok b := by
  cases x <;> simp [bind, Except.bind]

theorem map_eq_ok {f : α → β} : x.map f = .ok b ↔ ∃ a, x = .ok a ∧ f a = b := by
  cases x <;> simp [Except.map]

theorem bind_eq_error {f : α → Except ε β} {e : ε} :
    (x >>= f) = .error e ↔ x = .error e ∨ ∃ a, x = .ok a ∧ f a = .error e := by
  cases x <;> simp [bind, Except.bind]

theorem map_eq_error {f : α → β} {e : ε} : x.map f = .error e ↔ x = .error e := by
  cases x <;> simp [Except.map]

theorem mapM_error {f : α → Except ε β} {l : List α} {e : ε} (h : l.mapM f = .error e) :
    ∃ a ∈ l, f a = .error e := by
  induction l with
  | nil => cases h
  | cons a l ih =>
    rw [List.mapM_cons, bind_eq_error] at h
    obtain ha | ⟨b, -, h⟩ := h
    · exact ⟨a, List.mem_cons_self .., ha⟩
    · obtain hl | ⟨bs, -, h⟩ := bind_eq_error.mp h
      · obtain ⟨a', ha', he⟩ := ih hl
        exact ⟨a', List.mem_cons_of_mem _ ha', he⟩
      · cases h

theorem mapM_cons_eq_ok {f : α → Except ε β} {a : α} {l : List α} {bs : List β} :
    (a :: l).mapM f = .ok bs ↔ ∃ b rest, f a = .ok b ∧ l.mapM f = .ok rest ∧ bs = b :: rest := by
  rw [List.mapM_cons, bind_eq_ok]
  constructor
  · rintro ⟨b, hb, h⟩
    obtain ⟨rest, hrest, h⟩ := bind_eq_ok.mp h
    cases h
    exact ⟨b, rest, hb, hrest, rfl⟩
  · rintro ⟨b, rest, hb, hrest, rfl⟩
    exact ⟨b, hb, bind_eq_ok.mpr ⟨rest, hrest, rfl⟩⟩

/-- What succeeds for each element succeeds for all, and each result is that of an element. -/
theorem mapM_exists {f : α → Except ε β} {P : α → β → Prop} {l : List α}
    (h : ∀ a ∈ l, ∃ b, f a = .ok b ∧ P a b) :
    ∃ bs, l.mapM f = .ok bs ∧ (∀ b ∈ bs, ∃ a ∈ l, P a b) ∧ ∀ a ∈ l, ∃ b ∈ bs, P a b := by
  induction l with
  | nil => exact ⟨[], rfl, by simp, by simp⟩
  | cons a l ih =>
    obtain ⟨⟨b, hb, hab⟩, hl⟩ := List.forall_mem_cons.mp h
    obtain ⟨bs, hbs, hfrom, hto⟩ := ih hl
    refine ⟨b :: bs, mapM_cons_eq_ok.mpr ⟨b, bs, hb, hbs, rfl⟩, ?_, ?_⟩
    · refine List.forall_mem_cons.mpr ⟨⟨a, List.mem_cons_self .., hab⟩, fun b' hb' => ?_⟩
      obtain ⟨a', ha', hab'⟩ := hfrom b' hb'
      exact ⟨a', List.mem_cons_of_mem _ ha', hab'⟩
    · refine List.forall_mem_cons.mpr ⟨⟨b, List.mem_cons_self .., hab⟩, fun a' ha' => ?_⟩
      obtain ⟨b', hb', hab'⟩ := hto a' ha'
      exact ⟨b', List.mem_cons_of_mem _ hb', hab'⟩

/-- A question that is answered for each element picks those with the answer yes. -/
theorem filterM_eq_ok {γ : Type} {f : γ → Except ε Bool} {p : γ → Bool} {l : List γ}
    (h : ∀ a ∈ l, f a = .ok (p a)) : l.filterM f = .ok (l.filter p) := by
  have haux (acc : List γ) : l.filterAuxM f acc = .ok ((l.filter p).reverse ++ acc) := by
    induction l generalizing acc with
    | nil => rfl
    | cons a l ih =>
      obtain ⟨ha, hl⟩ := List.forall_mem_cons.mp h
      rw [List.filterAuxM, ha]
      refine (ih hl _).trans ?_
      cases hpa : p a <;> simp [hpa]
  rw [List.filterM, haux]
  simp [bind, Except.bind, pure, Except.pure]

/-- A fold fails at one element, with what the elements before it came to. -/
theorem foldlM_eq_error {f : β → α → Except ε β} {l : List α} {init : β} {e : ε} :
    l.foldlM f init = .error e ↔ ∃ before x after acc, l = before ++ x :: after ∧
      before.foldlM f init = .ok acc ∧ f acc x = .error e := by
  induction l generalizing init with
  | nil => simp [pure, Except.pure]
  | cons y l ih =>
    rw [List.foldlM_cons, bind_eq_error]
    constructor
    · rintro (hy | ⟨acc, hy, hl⟩)
      · exact ⟨[], y, l, init, rfl, rfl, hy⟩
      · obtain ⟨before, x, after, acc', rfl, hbefore, hx⟩ := ih.mp hl
        refine ⟨y :: before, x, after, acc', rfl, ?_, hx⟩
        rw [List.foldlM_cons, bind_eq_ok]
        exact ⟨acc, hy, hbefore⟩
    · rintro ⟨before, x, after, acc, heq, hbefore, hx⟩
      cases before with
      | nil =>
        obtain ⟨rfl, rfl⟩ := List.cons.inj heq
        cases hbefore
        exact Or.inl hx
      | cons z before =>
        obtain ⟨rfl, rfl⟩ := List.cons.inj heq
        rw [List.foldlM_cons, bind_eq_ok] at hbefore
        obtain ⟨acc', hy, hbefore⟩ := hbefore
        exact Or.inr ⟨acc', hy, ih.mpr ⟨before, x, after, acc, rfl, hbefore, hx⟩⟩

end Plain

section Files

variable {α β : Type} {x : Files α} {b : β} {t t' : FileTree}

/-- What an action on a file tree comes to, and the tree it leaves. -/
def outcome (x : Files α) (t : FileTree) : Except Failure α × FileTree :=
  x.run.run t

theorem outcome_bind (x : Files α) (f : α → Files β) (t : FileTree) :
    outcome (x >>= f) t =
      match outcome x t with
      | (.ok a, mid) => outcome (f a) mid
      | (.error e, mid) => (.error e, mid) := by
  unfold outcome
  simp only [ExceptT.run, StateT.run, bind, ExceptT.bind, ExceptT.mk, StateT.bind]
  cases x t with
  | mk result mid => cases result <;> rfl

theorem outcome_bind_eq_ok {f : α → Files β} :
    outcome (x >>= f) t = (.ok b, t') ↔
      ∃ a mid, outcome x t = (.ok a, mid) ∧ outcome (f a) mid = (.ok b, t') := by
  rw [outcome_bind]
  cases outcome x t with
  | mk result mid => cases result <;> simp [and_assoc]

@[simp] theorem outcome_pure (a : α) : outcome (pure a) t = (.ok a, t) := rfl

@[simp] theorem outcome_get : outcome get t = (.ok t, t) := rfl

@[simp] theorem outcome_set (s : FileTree) : outcome (set s) t = (.ok ⟨⟩, s) := rfl

@[simp] theorem outcome_lift (r : Except Failure α) : outcome (liftM r) t = (r, t) := by
  cases r <;> rfl

end Files

section Acts

variable {α β : Type}

/-- What an action on the host comes to, and the host it leaves. -/
def result (x : Act α) (h : Host) : Except Failure α × Host :=
  x.run.run h

theorem result_bind (x : Act α) (f : α → Act β) (h : Host) :
    result (x >>= f) h =
      match result x h with
      | (.ok a, mid) => result (f a) mid
      | (.error e, mid) => (.error e, mid) := by
  unfold result
  simp only [ExceptT.run, StateT.run, bind, ExceptT.bind, ExceptT.mk, StateT.bind]
  cases x h with
  | mk r mid => cases r <;> rfl

theorem result_lift (r : Except Failure α) (h : Host) : result (liftM r : Act α) h = (r, h) := by
  cases r <;> rfl

/-- Acting on files changes the files and nothing else of the host. -/
theorem result_files (f : Files α) (h : Host) :
    result (Act.files f) h =
      ((outcome f h.machine.tree).1, h.withTree (outcome f h.machine.tree).2) := by
  have hget : (get : Act Host) h = (.ok h, h) := rfl
  unfold result Act.files
  simp only [ExceptT.run, StateT.run, bind, ExceptT.bind, ExceptT.mk, StateT.bind,
    ExceptT.bindCont, outcome, hget]
  cases f h.machine.tree with
  | mk r tree => cases r <;> rfl

end Acts

end SnippetRunner.Success
