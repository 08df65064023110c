import DineFlow.Program
import DineFlow.Runs

namespace Atomic
set_option autoImplicit true

/-- Threads over one shared state, with a log of the statements executed so far. -/
structure Pool (τ ι σ : Type) where
  state : σ
  threads : List τ
  log : List (Nat × ι)

/-- The next statement of a program: its site, what becomes of the program and of the state. -/
def Prog.next : Prog ι σ ε α → Option (ι × (σ → Prog ι σ ε α × σ))
  | .stmt i u k _ => some (i, fun s => (k s, u s))
  | _ => none

/-- The result of a program that has ended. -/
def Prog.result : Prog ι σ ε α → Option (Except ε α)
  | .ret a => some (.ok a)
  | .throw e => some (.error e)
  | .stmt _ _ _ _ => none

theorem Prog.result_eq_ok {p : Prog ι σ ε α} : p.result = some (.ok a) ↔ p = .ret a := by
  cases p <;> simp [result]

namespace Pool

section Steps

variable (next : τ → Option (ι × (σ → τ × σ)))

/-- One statement of thread `i`; a thread that has ended stays as it is. -/
def step (p : Pool τ ι σ) (i : Nat) : Pool τ ι σ :=
  match p.threads[i]?.bind next with
  | some (site, act) =>
    ⟨(act p.state).2, p.threads.set i (act p.state).1, p.log ++ [(i, site)]⟩
  | none => p

def nextSite (p : Pool τ ι σ) (i : Nat) : Option ι := (p.threads[i]?.bind next).map Prod.fst

/-- Thread `i` has begun and has not ended. -/
def Running (p : Pool τ ι σ) (i : Nat) : Prop :=
  (∃ site, (i, site) ∈ p.log) ∧ (p.nextSite next i).isSome

theorem step_cases (p : Pool τ ι σ) (i : Nat) :
    p.step next i = p ∨ ∃ t site act, p.threads[i]? = some t ∧ next t = some (site, act) ∧
      p.nextSite next i = some site ∧
      p.step next i = ⟨(act p.state).2, p.threads.set i (act p.state).1, p.log ++ [(i, site)]⟩ := by
  rw [step, nextSite]
  cases ht : p.threads[i]? with
  | none => exact .inl rfl
  | some t =>
    rw [Option.bind_some]
    cases hn : next t with
    | none => exact .inl rfl
    | some r => exact .inr ⟨t, r.1, r.2, rfl, hn, rfl, rfl⟩

end Steps

theorem step_other (next : τ → Option (ι × (σ → τ × σ))) (p : Pool τ ι σ) (h : j ≠ i) :
    (p.step next j).threads[i]? = p.threads[i]? := by
  obtain he | ⟨t, site, act, -, -, -, he⟩ := step_cases next p j
  · rw [he]
  · rw [he, List.getElem?_set_ne h]

theorem lt_of_nextSite (next : τ → Option (ι × (σ → τ × σ))) {p : Pool τ ι σ} {i : Nat}
    (h : p.nextSite next i = some site) : i < p.threads.length := by
  by_contra hi
  rw [nextSite, List.getElem?_eq_none (Nat.le_of_not_lt hi)] at h
  cases h

theorem nextSite_set_other (next : τ → Option (ι × (σ → τ × σ))) {p : Pool τ ι σ} {i j : Nat}
    (h : j ≠ i) (s : σ) (t : τ) (log : List (Nat × ι)) :
    nextSite next ⟨s, p.threads.set i t, log⟩ j = p.nextSite next j := by
  rw [nextSite, nextSite, List.getElem?_set_ne h.symm]

theorem step_self (next : τ → Option (ι × (σ → τ × σ))) {p : Pool τ ι σ}
    (ht : p.threads[i]? = some t) (hn : next t = some (site, act)) :
    p.step next i = ⟨(act p.state).2, p.threads.set i (act p.state).1, p.log ++ [(i, site)]⟩ ∧
      (p.step next i).threads[i]? = some (act p.state).1 ∧ p.nextSite next i = some site := by
  have hlt := (List.getElem?_eq_some_iff.1 ht).1
  have he : p.threads[i]?.bind next = some (site, act) := by
    rw [ht]
    exact hn
  have hstep : p.step next i =
      ⟨(act p.state).2, p.threads.set i (act p.state).1, p.log ++ [(i, site)]⟩ := by
    rw [step, he]
  refine ⟨hstep, ?_, ?_⟩
  · rw [hstep, List.getElem?_set_self hlt]
  · rw [nextSite, he]
    rfl

theorem step_ended (next : τ → Option (ι × (σ → τ × σ))) {p : Pool τ ι σ}
    (ht : p.threads[i]? = some t) (hn : next t = none) :
    p.step next i = p := by
  rw [step, ht]
  dsimp only [Option.bind_some]
  rw [hn]

theorem step_absent (next : τ → Option (ι × (σ → τ × σ))) {p : Pool τ ι σ} {i : Nat}
    (ht : p.threads[i]? = none) : p.step next i = p := by
  rw [step, ht]
  rfl

theorem runs_absent (next : τ → Option (ι × (σ → τ × σ))) {p : Pool τ ι σ} {i : Nat}
    (ht : p.threads[i]? = none) (is : List Nat) : (runs (step next) p is).threads[i]? = none := by
  induction is generalizing p with
  | nil => exact ht
  | cons j is ih =>
    apply ih
    by_cases hij : j = i
    · subst hij
      rwa [step_absent next ht]
    · rwa [step_other next p hij]

theorem of_getElem?_set {l : List τ} (h : (l.set i a)[j]? = some b) :
    (i = j ∧ b = a) ∨ (i ≠ j ∧ l[j]? = some b) := by
  by_cases hij : i = j
  · subst hij
    have hlt : i < l.length := by
      have hl := (List.getElem?_eq_some_iff.1 h).1
      rwa [List.length_set] at hl
    rw [List.getElem?_set_self hlt] at h
    exact .inl ⟨rfl, (Option.some.inj h).symm⟩
  · rw [List.getElem?_set_ne hij] at h
    exact .inr ⟨hij, h⟩

theorem of_getElem?_map_append {l : List τ} {f : τ → γ} {g : υ → γ} {l' : List υ} {i : Nat}
    (h : (l.map f ++ l'.map g)[i]? = some b) :
    (∃ a, l[i]? = some a ∧ b = f a) ∨ l[i]? = none ∧ ∃ a ∈ l', b = g a := by
  rcases Nat.lt_or_ge i (l.map f).length with hi | hi
  · rw [List.getElem?_append_left hi, List.getElem?_map] at h
    obtain ⟨a, ha, rfl⟩ := Option.map_eq_some_iff.1 h
    exact .inl ⟨a, ha, rfl⟩
  · rw [List.getElem?_append_right hi] at h
    obtain ⟨a, ha, rfl⟩ := List.mem_map.1 (List.mem_of_getElem? h)
    rw [List.length_map] at hi
    exact .inr ⟨List.getElem?_eq_none hi, a, ha, rfl⟩

/-- What every statement of every thread preserves holds along every schedule. -/
theorem runs_invariant {I : σ → Prop} (hI : ∀ s s', R s s' → I s → I s')
    (p : Pool (Prog ι σ ε α) ι σ) (hp : ∀ t ∈ p.threads, t.Within R) (hs : I p.state)
    (is : List Nat) : I (runs (step Prog.next) p is).state := by
  induction is generalizing p with
  | nil => exact hs
  | cons i is ih =>
    rw [runs_cons]
    obtain he | ⟨t, site, act, ht, hn, -, he⟩ := step_cases Prog.next p i
    · rw [he]
      exact ih p hp hs
    · have hw := hp t (List.mem_of_getElem? ht)
      cases t with
      | ret => cases hn
      | throw => cases hn
      | stmt j u k z =>
        cases hn
        rw [he]
        refine ih _ (fun t' ht' => ?_) (hI _ _ (hw.1 _) hs)
        rcases List.mem_or_eq_of_mem_set ht' with ht' | rfl
        · exact hp t' ht'
        · exact hw.2.1 _

def map (g : τ → τ') (p : Pool τ ι σ) : Pool τ' ι σ := ⟨p.state, p.threads.map g, p.log⟩

/-- Under `g` every thread does next what its image does. -/
def Simulates (next : τ → Option (ι × (σ → τ × σ))) (next' : τ' → Option (ι × (σ → τ' × σ)))
    (g : τ → τ') : Prop :=
  ∀ t, next' (g t) = (next t).map fun r => (r.1, fun s => (g (r.2 s).1, (r.2 s).2))

section Simulation

variable {next : τ → Option (ι × (σ → τ × σ))} {next' : τ' → Option (ι × (σ → τ' × σ))}
variable {g : τ → τ'} (h : Simulates next next' g)
include h

theorem bind_map (p : Pool τ ι σ) (i : Nat) :
    (p.map g).threads[i]?.bind next' =
      (p.threads[i]?.bind next).map fun r => (r.1, fun s => (g (r.2 s).1, (r.2 s).2)) := by
  rw [map, List.getElem?_map]
  cases p.threads[i]? with
  | none => rfl
  | some t => exact h t

theorem nextSite_map (p : Pool τ ι σ) (i : Nat) :
    (p.map g).nextSite next' i = p.nextSite next i := by
  rw [nextSite, nextSite, bind_map h, Option.map_map]
  rfl

theorem step_map (p : Pool τ ι σ) (i : Nat) :
    (p.map g).step next' i = (p.step next i).map g := by
  rw [step, step, bind_map h]
  cases p.threads[i]?.bind next with
  | none => rfl
  | some r => simp [map, List.map_set]

theorem runs_map (p : Pool τ ι σ) (is : List Nat) :
    runs (step next') (p.map g) is = (runs (step next) p is).map g := by
  induction is generalizing p with
  | nil => rfl
  | cons i is ih => rw [runs_cons, runs_cons, step_map h, ih]

theorem guarded_map {ok : Pool τ' ι σ → Nat → Prop} (p : Pool τ ι σ) (is : List Nat) :
    Guarded (step next') ok (p.map g) is ↔
      Guarded (step next) (fun q i => ok (q.map g) i) p is := by
  induction is generalizing p with
  | nil => exact Iff.rfl
  | cons i is ih => exact and_congr Iff.rfl (by rw [step_map h]; exact ih _)

end Simulation

/-- Since thread `i` ran `read`, no other thread ran a statement that writes. -/
def Quiet (es : List (Nat × ι)) (read : ι) (write : ι → Prop) (i : Nat) : Prop :=
  ∀ l l', es = l ++ (i, read) :: l' → ∀ e ∈ l', e.1 ≠ i → ¬write e.2

theorem Quiet.of_snoc {es : List (Nat × ι)} {r : ι} (h : Quiet (es ++ [e]) r W i) :
    Quiet es r W i := by
  intro l l' hl x hx
  refine h l (l' ++ [e]) ?_ x (List.mem_append_left _ hx)
  rw [hl, List.append_assoc]
  rfl

theorem Quiet.last {es : List (Nat × ι)} {r : ι} (h : Quiet (es ++ [e]) r W i)
    (hi : (i, r) ∈ es) (he : e.1 ≠ i) : ¬W e.2 := by
  obtain ⟨l, l', rfl⟩ := List.append_of_mem hi
  refine h l (l' ++ [e]) ?_ e (List.mem_append_right _ List.mem_cons_self) he
  rw [List.append_assoc]
  rfl

instance [DecidableEq ι] (es : List (Nat × ι)) (r : ι) (W : ι → Prop) [DecidablePred W] (i : Nat) :
    Decidable (Quiet es r W i) :=
  decidable_of_iff (∀ t ∈ es.tails, t.head? = some (i, r) → ∀ e ∈ t.tail, e.1 ≠ i → ¬W e.2) <| by
    constructor
    · intro h l l' hl
      exact h ((i, r) :: l') ((List.mem_tails _ _).2 ⟨l, hl.symm⟩) rfl
    · intro h t ht hhead
      obtain ⟨l, hl⟩ := (List.mem_tails _ _).1 ht
      refine h l t.tail ?_
      rw [List.cons_head?_tail hhead, hl]

end Pool
end Atomic
