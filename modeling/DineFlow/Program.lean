import Mathlib

namespace Atomic
set_option autoImplicit true

/-- A program over a shared state. Each statement is one atomic step with its own site; a
statement that fails at its site leaves the state alone and continues with `fault`. -/
inductive Prog (ι σ ε α : Type) where
  | ret (a : α)
  | throw (e : ε)
  | stmt (site : ι) (upd : σ → σ) (next : σ → Prog ι σ ε α) (fault : Prog ι σ ε α)

namespace Prog

def bind (p : Prog ι σ ε α) (g : α → Prog ι σ ε β) : Prog ι σ ε β :=
  match p with
  | .ret a => g a
  | .throw e => .throw e
  | .stmt i u k z => .stmt i u (fun s => (k s).bind g) (z.bind g)

instance : Monad (Prog ι σ ε) where
  pure := .ret
  bind := .bind

@[simp] theorem pure_eq (a : α) : (pure a : Prog ι σ ε α) = .ret a := rfl

@[simp] theorem bind_eq (p : Prog ι σ ε α) (g : α → Prog ι σ ε β) : p >>= g = p.bind g := rfl

@[simp] theorem ret_bind (a : α) (g : α → Prog ι σ ε β) : (ret a).bind g = g a := rfl

@[simp] theorem throw_bind (e : ε) (g : α → Prog ι σ ε β) : (throw e).bind g = throw e := rfl

@[simp] theorem stmt_bind (i : ι) (u : σ → σ) (k : σ → Prog ι σ ε α) (z : Prog ι σ ε α)
    (g : α → Prog ι σ ε β) :
    (stmt i u k z).bind g = stmt i u (fun s => (k s).bind g) (z.bind g) := rfl

theorem bind_assoc (p : Prog ι σ ε α) (g : α → Prog ι σ ε β) (h : β → Prog ι σ ε γ) :
    (p.bind g).bind h = p.bind fun a => (g a).bind h := by
  induction p with
  | ret => rfl
  | throw => rfl
  | stmt i u k z ihk ihz =>
    simp only [stmt_bind, ihz]
    congr 1
    funext s
    exact ihk s

/-- An outcome that is already known, as a program without statements. -/
def ofExcept : Except ε α → Prog ι σ ε α
  | .ok a => .ret a
  | .error e => .throw e

@[simp] theorem ofExcept_ok (a : α) : (ofExcept (.ok a) : Prog ι σ ε α) = .ret a := rfl

@[simp] theorem ofExcept_error (e : ε) : (ofExcept (.error e) : Prog ι σ ε α) = .throw e := rfl

/-- One statement that reads the state. -/
def query (site : ι) (read : σ → Except ε α) (fault : Except ε α) : Prog ι σ ε α :=
  .stmt site id (fun s => ofExcept (read s)) (ofExcept fault)

/-- One statement that changes the state, unless it is rejected. -/
def exec (site : ι) (act : σ → Except ε (α × σ)) (fault : Except ε α) : Prog ι σ ε α :=
  .stmt site (fun s => match act s with | .ok r => r.2 | .error _ => s)
    (fun s => ofExcept ((act s).map Prod.fst)) (ofExcept fault)

/-- A body for each list element in turn, given the element's position. -/
def each (body : Nat → α → Prog ι σ ε Unit) : Nat → List α → Prog ι σ ε Unit
  | _, [] => .ret ()
  | n, x :: xs => (body n x).bind fun _ => each body (n + 1) xs

/-- The results of one body over a list, or the first failure. -/
def mapAll (body : α → Prog ι σ ε β) : List α → Prog ι σ ε (List β)
  | [] => .ret []
  | x :: xs => (body x).bind fun y => (mapAll body xs).bind fun ys => .ret (y :: ys)

/-- Uninterrupted execution, where `f` says which statement sites fail. -/
def run (f : ι → Bool) : Prog ι σ ε α → σ → Except ε α × σ
  | .ret a, s => (.ok a, s)
  | .throw e, s => (.error e, s)
  | .stmt i u k z, s => if f i then z.run f s else (k s).run f (u s)

@[simp] theorem run_ret (f : ι → Bool) (a : α) (s : σ) :
    (ret a : Prog ι σ ε α).run f s = (.ok a, s) := rfl

@[simp] theorem run_throw (f : ι → Bool) (e : ε) (s : σ) :
    (throw e : Prog ι σ ε α).run f s = (.error e, s) := rfl

theorem run_stmt (f : ι → Bool) (i : ι) (u : σ → σ) (k : σ → Prog ι σ ε α)
    (z : Prog ι σ ε α) (s : σ) :
    (stmt i u k z).run f s = if f i then z.run f s else (k s).run f (u s) := rfl

@[simp] theorem run_ofExcept (f : ι → Bool) (r : Except ε α) (s : σ) :
    (ofExcept r : Prog ι σ ε α).run f s = (r, s) := by
  cases r <;> rfl

theorem run_query (f : ι → Bool) (i : ι) (read : σ → Except ε α) (z : Except ε α) (s : σ) :
    (query i read z).run f s = (if f i then z else read s, s) := by
  simp only [query, run_stmt, run_ofExcept, id]
  split <;> rfl

theorem run_exec (f : ι → Bool) (i : ι) (act : σ → Except ε (α × σ)) (z : Except ε α) (s : σ) :
    (exec i act z).run f s =
      if f i then (z, s) else
        match act s with
        | .ok r => (.ok r.1, r.2)
        | .error e => (.error e, s) := by
  simp only [exec, run_stmt, run_ofExcept]
  cases f i with
  | true => rfl
  | false => cases act s <;> rfl

theorem run_bind (f : ι → Bool) (p : Prog ι σ ε α) (g : α → Prog ι σ ε β) (s : σ) :
    (p.bind g).run f s =
      match p.run f s with
      | (.ok a, s') => (g a).run f s'
      | (.error e, s') => (.error e, s') := by
  induction p generalizing s with
  | ret => rfl
  | throw => rfl
  | stmt i u k z ihk ihz =>
    simp only [stmt_bind, run_stmt]
    split
    · exact ihz s
    · exact ihk s (u s)

theorem run_bind_ok {p : Prog ι σ ε α} {g : α → Prog ι σ ε β} (h : p.run f s = (.ok a, s')) :
    (p.bind g).run f s = (g a).run f s' := by
  rw [run_bind, h]

theorem run_bind_error {p : Prog ι σ ε α} {g : α → Prog ι σ ε β}
    (h : p.run f s = (.error e, s')) : (p.bind g).run f s = (.error e, s') := by
  rw [run_bind, h]

theorem run_bind_inv {p : Prog ι σ ε α} {g : α → Prog ι σ ε β}
    (h : ((p.bind g).run f s).1 = .ok v) :
    ∃ a s', p.run f s = (.ok a, s') ∧ (p.bind g).run f s = (g a).run f s' := by
  rw [run_bind] at h ⊢
  generalize p.run f s = r at h ⊢
  obtain ⟨r, s'⟩ := r
  cases r with
  | error e => cases h
  | ok a => exact ⟨a, s', rfl, rfl⟩

/-- The sites of the statements that an uninterrupted execution sends. -/
def sites (f : ι → Bool) : Prog ι σ ε α → σ → List ι
  | .ret _, _ | .throw _, _ => []
  | .stmt i u k z, s => i :: if f i then z.sites f s else (k s).sites f (u s)

theorem sites_bind (f : ι → Bool) (p : Prog ι σ ε α) (g : α → Prog ι σ ε β) (s : σ) :
    (p.bind g).sites f s = p.sites f s ++
      match p.run f s with
      | (.ok a, s') => (g a).sites f s'
      | (.error _, _) => [] := by
  induction p generalizing s with
  | ret => rfl
  | throw => rfl
  | stmt i u k z ihk ihz =>
    simp only [stmt_bind, sites, run_stmt, List.cons_append]
    congr 1
    split
    · exact ihz s
    · exact ihk s (u s)

theorem sites_bind_ok {p : Prog ι σ ε α} {g : α → Prog ι σ ε β} (h : p.run f s = (.ok a, s')) :
    (p.bind g).sites f s = p.sites f s ++ (g a).sites f s' := by
  rw [sites_bind, h]

theorem run_bind_ret (p : Prog ι σ ε α) (g : α → β) (f : ι → Bool) (s : σ) :
    (p.bind fun a => .ret (g a)).run f s = ((p.run f s).1.map g, (p.run f s).2) := by
  rw [run_bind]
  cases p.run f s with
  | mk r s' => cases r <;> rfl

theorem run_mapAll {body : α → Prog ι σ ε β} {key : α → κ} {key' : β → κ} {xs : List α}
    (h : ∀ x ∈ xs, ∃ y, (body x).run f s = (.ok y, s) ∧ key' y = key x) :
    ∃ ys, (mapAll body xs).run f s = (.ok ys, s) ∧ ys.map key' = xs.map key := by
  induction xs with
  | nil => exact ⟨[], rfl, rfl⟩
  | cons x xs ih =>
    obtain ⟨y, hy, hk⟩ := h x List.mem_cons_self
    obtain ⟨ys, hys, hks⟩ := ih fun z hz => h z (List.mem_cons_of_mem _ hz)
    refine ⟨y :: ys, ?_, by rw [List.map_cons, List.map_cons, hk, hks]⟩
    rw [mapAll, run_bind_ok hy, run_bind_ok hys]
    rfl

/-- Every statement of the program changes the state within the relation. -/
def Within (R : σ → σ → Prop) : Prog ι σ ε α → Prop
  | .ret _ | .throw _ => True
  | .stmt _ u k z => (∀ s, R s (u s)) ∧ (∀ s, (k s).Within R) ∧ z.Within R

theorem Within.bind {p : Prog ι σ ε α} {g : α → Prog ι σ ε β} (hp : p.Within R)
    (hg : ∀ a, (g a).Within R) : (p.bind g).Within R := by
  induction p with
  | ret a => exact hg a
  | throw => trivial
  | stmt i u k z ihk ihz => exact ⟨hp.1, fun s => ihk s (hp.2.1 s), ihz hp.2.2⟩

/-- Every result the program can end in satisfies the predicate. -/
def Returns (Q : α → Prop) : Prog ι σ ε α → Prop
  | .ret a => Q a
  | .throw _ => True
  | .stmt _ _ k z => (∀ s, (k s).Returns Q) ∧ z.Returns Q

theorem Returns.bind {p : Prog ι σ ε α} {g : α → Prog ι σ ε β} (hp : p.Returns Q)
    (hg : ∀ a, Q a → (g a).Returns Q') : (p.bind g).Returns Q' := by
  induction p with
  | ret a => exact hg a hp
  | throw => trivial
  | stmt i u k z ihk ihz => exact ⟨fun s => ihk s (hp.1 s), ihz hp.2⟩

theorem returns_true (p : Prog ι σ ε α) : p.Returns fun _ => True := by
  induction p with
  | ret => trivial
  | throw => trivial
  | stmt i u k z ihk ihz => exact ⟨ihk, ihz⟩

theorem Returns.mono {p : Prog ι σ ε α} (h : p.Returns Q) (hQ : ∀ a, Q a → Q' a) :
    p.Returns Q' := by
  induction p with
  | ret a => exact hQ a h
  | throw => trivial
  | stmt i u k z ihk ihz => exact ⟨fun s => ihk s (h.1 s), ihz h.2⟩

theorem returns_ofExcept {Q : α → Prop} {r : Except ε α} (h : ∀ a, r = .ok a → Q a) :
    (ofExcept r : Prog ι σ ε α).Returns Q := by
  cases r with
  | error => trivial
  | ok a => exact h a rfl

theorem returns_query {Q : α → Prop} (i : ι) {read : σ → Except ε α} {z : Except ε α}
    (h : ∀ s a, read s = .ok a → Q a) (hz : ∀ a, z = .ok a → Q a) :
    (query i read z).Returns Q :=
  ⟨fun s => returns_ofExcept (h s), returns_ofExcept hz⟩

theorem returns_mapAll {body : α → Prog ι σ ε β} {Q : α → β → Prop}
    (h : ∀ x, (body x).Returns (Q x)) (xs : List α) :
    (mapAll body xs).Returns fun ys => ∀ y ∈ ys, ∃ x ∈ xs, Q x y := by
  induction xs with
  | nil => exact fun y hy => absurd hy List.not_mem_nil
  | cons x xs ih =>
    refine (h x).bind fun y hy => ih.bind fun ys hys => List.forall_mem_cons.2 ⟨?_, ?_⟩
    · exact ⟨x, List.mem_cons_self, hy⟩
    · intro z hz
      obtain ⟨x', hx', hz'⟩ := hys z hz
      exact ⟨x', List.mem_cons_of_mem _ hx', hz'⟩

theorem Within.bind_returns {p : Prog ι σ ε α} {g : α → Prog ι σ ε β} (hp : p.Within R)
    (hq : p.Returns Q) (hg : ∀ a, Q a → (g a).Within R) : (p.bind g).Within R := by
  induction p with
  | ret a => exact hg a hq
  | throw => trivial
  | stmt i u k z ihk ihz =>
    exact ⟨hp.1, fun s => ihk s (hp.2.1 s) (hq.1 s), ihz hp.2.2 hq.2⟩

theorem within_ofExcept (R : σ → σ → Prop) (r : Except ε α) :
    (ofExcept r : Prog ι σ ε α).Within R := by
  cases r <;> trivial

theorem within_query {R : σ → σ → Prop} (hR : ∀ s, R s s) (i : ι) (read : σ → Except ε α)
    (z : Except ε α) : (query i read z).Within R :=
  ⟨hR, fun _ => within_ofExcept R _, within_ofExcept R _⟩

theorem within_exec {R : σ → σ → Prop} (hR : ∀ s, R s s) (i : ι)
    {act : σ → Except ε (α × σ)} (z : Except ε α) (h : ∀ s r, act s = .ok r → R s r.2) :
    (exec i act z).Within R := by
  refine ⟨fun s => ?_, fun _ => within_ofExcept R _, within_ofExcept R _⟩
  dsimp only
  cases ha : act s with
  | error => exact hR s
  | ok r => exact h s r ha

theorem within_each {body : Nat → α → Prog ι σ ε Unit} (h : ∀ n x, (body n x).Within R)
    (n : Nat) (xs : List α) : (each body n xs).Within R := by
  induction xs generalizing n with
  | nil => trivial
  | cons x xs ih => exact (h n x).bind fun _ => ih _

theorem within_mapAll {body : α → Prog ι σ ε β} (h : ∀ x, (body x).Within R) (xs : List α) :
    (mapAll body xs).Within R := by
  induction xs with
  | nil => trivial
  | cons x xs ih => exact (h x).bind fun _ => ih.bind fun _ => trivial

theorem Within.run {p : Prog ι σ ε α} (h : p.Within R) (hR : ∀ s, R s s)
    (ht : ∀ {a b c}, R a b → R b c → R a c) (f : ι → Bool) (s : σ) : R s (p.run f s).2 := by
  induction p generalizing s with
  | ret => exact hR s
  | throw => exact hR s
  | stmt i u k z ihk ihz =>
    rw [run_stmt]
    split
    · exact ihz h.2.2 s
    · exact ht (h.1 s) (ihk s (h.2.1 s) (u s))

/-- Programs none of whose statements touch one component of the state. -/
def Keeps (π : σ → τ) (p : Prog ι σ ε α) : Prop := p.Within fun s s' => π s' = π s

theorem Within.mono {p : Prog ι σ ε α} (h : p.Within R) (hR : ∀ s s', R s s' → R' s s') :
    p.Within R' := by
  induction p with
  | ret => trivial
  | throw => trivial
  | stmt i u k z ihk ihz =>
    exact ⟨fun s => hR _ _ (h.1 s), fun s => ihk s (h.2.1 s), ihz h.2.2⟩

/-- An invariant of the relation a program stays within is an invariant of its runs. -/
theorem Within.invariant {p : Prog ι σ ε α} {I : σ → Prop} (h : p.Within R)
    (hI : ∀ s s', R s s' → I s → I s') (f : ι → Bool) (hs : I s) : I (p.run f s).2 :=
  Within.run (R := fun s s' => I s → I s') (h.mono hI) (fun _ hs => hs)
    (fun h h' hs => h' (h hs)) f s hs

theorem Keeps.within {p : Prog ι σ ε α} (h : p.Keeps id) (hR : ∀ s, R s s) : p.Within R :=
  Within.mono h fun s s' he => by
    cases (he : s' = s)
    exact hR s

theorem keeps_query (π : σ → τ) (i : ι) (read : σ → Except ε α) (z : Except ε α) :
    (query i read z).Keeps π :=
  ⟨fun _ => rfl, fun _ => within_ofExcept _ _, within_ofExcept _ _⟩

theorem keeps_exec {π : σ → τ} (i : ι) {act : σ → Except ε (α × σ)} (z : Except ε α)
    (h : ∀ s r, act s = .ok r → π r.2 = π s) : (exec i act z).Keeps π :=
  within_exec (R := fun s s' => π s' = π s) (fun _ => rfl) i z h

theorem Keeps.run {π : σ → τ} {p : Prog ι σ ε α} (h : p.Keeps π) (f : ι → Bool) (s : σ) :
    π (p.run f s).2 = π s :=
  Within.run h (fun _ => rfl) (fun h h' => h'.trans h) f s

theorem Keeps.run_bind_ok {π : σ → τ} {p : Prog ι σ ε α} {g : α → Prog ι σ ε β}
    (hp : p.Keeps π) (h : ((p.bind g).run f s).1 = .ok v) :
    ∃ a s', π s' = π s ∧ (p.bind g).run f s = (g a).run f s' := by
  obtain ⟨a, s', hrun, hbind⟩ := run_bind_inv h
  have hkept := hp.run f s
  rw [hrun] at hkept
  exact ⟨a, s', hkept, hbind⟩

theorem run_mapAll_ok {body : α → Prog ι σ ε β} (hk : ∀ x, (body x).Keeps id)
    (h : ((mapAll body xs).run f s).1 = .ok ys) :
    (xs.map fun x => ((body x).run f s).1) = ys.map .ok := by
  induction xs generalizing ys with
  | nil =>
    cases h
    rfl
  | cons x xs ih =>
    obtain ⟨y, s', hrun, hbind⟩ := run_bind_inv h
    have hs : s' = s := by
      have hkept := (hk x).run f s
      rwa [hrun] at hkept
    rw [mapAll, hbind, run_bind_ret, hs] at h
    cases hrest : ((mapAll body xs).run f s).1 with
    | error e =>
      rw [hrest] at h
      cases h
    | ok ys' =>
      rw [hrest] at h
      cases h
      rw [List.map_cons, List.map_cons, hrun, ih hrest]

end Prog
end Atomic
