import DineFlow.Runs

namespace Atomic
set_option autoImplicit true

/-- A client and the server it asks, with the requests and the replies that are on their way. -/
structure Wire (σ ω ρ β : Type) where
  client : σ
  server : ω
  requests : List ρ
  replies : List β

/-- What a client does by itself and on a reply, and how the server answers a request. -/
structure Exchange (σ ω α ε ρ β : Type) where
  act : α → σ → σ × List ρ
  serve : ε → ρ → ω → β × ω
  receive : β → σ → σ × List ρ

/-- The client acts, or a message that is on its way arrives; which one is left open. -/
inductive Move (α ε : Type) where
  | act (a : α)
  | serve (i : Nat) (e : ε)
  | receive (i : Nat)

/-- Nothing is on its way. -/
def Wire.Quiet (n : Wire σ ω ρ β) : Prop := n.requests = [] ∧ n.replies = []

instance Wire.Quiet.decidable (n : Wire σ ω ρ β) : Decidable n.Quiet :=
  decidable_of_iff (n.requests.isEmpty = true ∧ n.replies.isEmpty = true)
    (and_congr List.isEmpty_iff List.isEmpty_iff)

theorem Guarded.and {step : σ → α → σ} (h : Guarded step ok s as) (h' : Guarded step ok' s as) :
    Guarded step (fun s a => ok s a ∧ ok' s a) s as := by
  induction as generalizing s with
  | nil => trivial
  | cons a as ih => exact ⟨⟨h.1, h'.1⟩, ih h.2 h'.2⟩

namespace Exchange

variable (x : Exchange σ ω α ε ρ β)

def acted (a : α) (n : Wire σ ω ρ β) : Wire σ ω ρ β :=
  { n with
    client := (x.act a n.client).1
    requests := n.requests ++ (x.act a n.client).2 }

def served (e : ε) (m : ρ) (rest : List ρ) (n : Wire σ ω ρ β) : Wire σ ω ρ β :=
  { n with
    server := (x.serve e m n.server).2
    requests := rest
    replies := n.replies ++ [(x.serve e m n.server).1] }

def received (b : β) (rest : List β) (n : Wire σ ω ρ β) : Wire σ ω ρ β :=
  { n with
    client := (x.receive b n.client).1
    requests := n.requests ++ (x.receive b n.client).2
    replies := rest }

/-- A message that is not there cannot arrive. -/
def step (n : Wire σ ω ρ β) : Move α ε → Wire σ ω ρ β
  | .act a => x.acted a n
  | .serve i e =>
    match n.requests[i]? with
    | some m => x.served e m (n.requests.eraseIdx i) n
    | none => n
  | .receive i =>
    match n.replies[i]? with
    | some b => x.received b (n.replies.eraseIdx i) n
    | none => n

theorem perm_eraseIdx {l : List γ} {i : Nat} (h : l[i]? = some c) : l.Perm (c :: l.eraseIdx i) := by
  obtain ⟨hi, rfl⟩ := List.getElem?_eq_some_iff.1 h
  exact (List.getElem_cons_eraseIdx_perm hi).symm

theorem step_keeps {x : Exchange σ ω α ε ρ β} {n : Wire σ ω ρ β} {I : Wire σ ω ρ β → Prop}
    (mv : Move α ε) (h : I n) (hact : ∀ a, mv = .act a → I (x.acted a n))
    (hserve : ∀ i e m rest, mv = .serve i e → n.requests[i]? = some m →
      n.requests.Perm (m :: rest) → I (x.served e m rest n))
    (hreceive : ∀ b rest, n.replies.Perm (b :: rest) → I (x.received b rest n)) :
    I (x.step n mv) := by
  cases mv with
  | act a => exact hact a rfl
  | serve i e =>
    rw [step]
    cases hm : n.requests[i]? with
    | none => exact h
    | some m => exact hserve i e m _ rfl hm (perm_eraseIdx hm)
  | receive i =>
    rw [step]
    cases hb : n.replies[i]? with
    | none => exact h
    | some b => exact hreceive b _ (perm_eraseIdx hb)

end Exchange

end Atomic
