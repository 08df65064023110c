import DineFlow.History

namespace DineFlow
open Atomic Relational
set_option autoImplicit true

/-- The records of one kind, which requests only ever add to. -/
structure Kept (rows : World → List ρ) : Prop where
  grow : ∀ pf r op w w', Effect pf r op w w' → rows w <+: rows w'
  gateway : ∀ w gateway, rows { w with gateway := gateway } = rows w

theorem Effect.ledger_grows (h : Effect pf r op w w') :
    w.db.ledger.accounts <+: w'.db.ledger.accounts ∧
      w.db.ledger.bookings <+: w'.db.ledger.bookings := by
  have hwrites : Writes (fun _ => True) w.db w'.db :=
    h.writes (fun _ _ => trivial) (fun _ _ _ _ _ _ => trivial) (fun _ _ _ => trivial)
      fun _ _ => trivial
  rcases hwrites.ledger with hsame | ⟨record, _, hadded⟩
  · rw [hsame]
    exact ⟨List.prefix_refl _, List.prefix_refl _⟩
  · rw [hadded]
    cases record with
    | account a => exact ⟨List.prefix_append _ _, List.prefix_refl _⟩
    | booking b => exact ⟨List.prefix_refl _, List.prefix_append _ _⟩
    | order o => exact ⟨List.prefix_refl _, List.prefix_refl _⟩
    | line l => exact ⟨List.prefix_refl _, List.prefix_refl _⟩

theorem kept_accounts : Kept fun w => w.db.ledger.accounts :=
  ⟨fun _ _ _ _ _ h => h.ledger_grows.1, fun _ _ => rfl⟩

theorem kept_bookings : Kept fun w => w.db.ledger.bookings :=
  ⟨fun _ _ _ _ _ h => h.ledger_grows.2, fun _ _ => rfl⟩

/-- The requests that add a record of this kind: which one, and what they answer then. -/
structure Receipt (pf : Platform) (rows : World → List ρ) (key : ρ → κ) where
  gives : Operation → Bool
  makes : Request × Operation → ρ → Prop
  answers : Request × Operation → ρ → Response → Prop
  follows : ∀ r op P, gives op = true → (∀ x, makes (r, op) x → P x) →
    (handle pf r op).Follows (fun _ => True) (Pool.ClaimStep rows key P)
      (fun g v => ∃ x, g = some x ∧ answers (r, op) x v) none

theorem reads_follow {rows : World → List ρ} {key : ρ → κ} {p : Api α} {P : ρ → Prop}
    (h : p.Keeps id) (g : Option ρ) :
    p.Follows V (Pool.ClaimStep rows key P) (fun g' _ => g' = g ∧ True) g :=
  Prog.Within.follows (h.within (R := fun w w' => rows w <+: rows w') fun w =>
    List.prefix_refl (rows w)) (Prog.returns_true p) fun _ _ hs => .grow hs

section Receipts

variable {rows : World → List ρ} {key : ρ → κ} (hrows : Kept rows)
include hrows

theorem Kept.serveLive (pf : Platform) (calls : List (Request × Operation)) (ops : List SocketOp)
    (w : World) : (serveLive pf calls ops w).EachWithin fun _ w w' => rows w <+: rows w' := by
  apply serveLive_within (R := fun w w' => rows w <+: rows w')
  · exact fun w => List.prefix_refl (rows w)
  · exact fun _ _ _ _ h => hrows.grow _ _ _ _ _ h
  · intro op _ w
    have hsame := hrows.gateway w (op.serve pf w.gateway)
    rw [hsame]

theorem Kept.later (pf : Platform) (calls : List (Request × Operation)) (ops : List SocketOp)
    (w : World) (turns later : List (Nat × Bool)) :
    rows (runs Pool.turn (DineFlow.serveLive pf calls ops w) turns).state <+:
      rows (runs Pool.turn (DineFlow.serveLive pf calls ops w) (turns ++ later)).state := by
  rw [runs_append]
  exact ((hrows.serveLive pf calls ops w).runs (fun _ w => List.prefix_refl (rows w))
    turns).runs_related (fun w => List.prefix_refl (rows w)) (fun _ _ _ => List.IsPrefix.trans)
    later

variable (receipt : Receipt pf rows key)

/-- What a request has to show for itself when it has been answered. -/
def Receipt.Shown (calls : List (Request × Operation)) (i : Nat) (g : Option ρ) (v : Response) :
    Prop :=
  ∀ c, calls[i]? = some c → receipt.gives c.2 = true → ∃ x, g = some x ∧ receipt.answers c x v

theorem Receipt.claimed (calls : List (Request × Operation)) (ops : List SocketOp) (w : World)
    (turns : List (Nat × Bool)) :
    ∃ gs, (runs Pool.turn (DineFlow.serveLive pf calls ops w) turns).AllFollow (fun _ => True)
        (fun i => Pool.ClaimStep rows key fun x => ∃ c, calls[i]? = some c ∧ receipt.makes c x)
        (receipt.Shown calls) gs ∧
      Pool.Claimed rows key (fun i x => ∃ c, calls[i]? = some c ∧ receipt.makes c x)
        (runs Pool.turn (DineFlow.serveLive pf calls ops w) turns).state gs := by
  have hstart : Pool.Claimed rows key
      (fun i x => ∃ c, calls[i]? = some c ∧ receipt.makes c x) w fun _ => none := .start w
  refine Pool.runs_follow_always Pool.Claimed.step (fun i t ht => ?_) hstart turns
  have hgrow := hrows.serveLive pf calls ops w i t ht
  have hother (hno : ∀ c, calls[i]? = some c → receipt.gives c.2 = false) :
      t.Follows (fun _ => True)
        (Pool.ClaimStep rows key fun x => ∃ c, calls[i]? = some c ∧ receipt.makes c x)
        (receipt.Shown calls i) none := by
    refine Prog.Follows.mono (hgrow.follows (Prog.returns_true t) fun _ _ hs => .grow hs)
      fun g v _ c hc hgives => ?_
    rw [hno c hc] at hgives
    cases hgives
  rcases getElem?_serveLive ht with ⟨⟨r, op⟩, hc, rfl⟩ | ⟨hnone, op, _, rfl⟩
  · cases hgives : receipt.gives op with
    | true =>
      refine (receipt.follows r op _ hgives fun x hx => ⟨_, hc, hx⟩).mono fun g v hv c hc' _ => ?_
      rw [hc] at hc'
      cases hc'
      exact hv
    | false =>
      refine hother fun c hc' => ?_
      rw [hc] at hc'
      cases hc'
      exact hgives
  · refine hother fun c hc => ?_
    rw [hnone] at hc
    cases hc

theorem Receipt.on_record {calls : List (Request × Operation)} (ops : List SocketOp) (w : World)
    (turns later : List (Nat × Bool)) {i : Nat} (hi : calls[i]? = some c)
    (hgives : receipt.gives c.2 = true)
    (hv : (runs Pool.turn (DineFlow.serveLive pf calls ops w) turns).threads[i]? = some (.ret v)) :
    ∃ x, receipt.answers c x v ∧
      x ∈ rows (runs Pool.turn (DineFlow.serveLive pf calls ops w) (turns ++ later)).state := by
  obtain ⟨gs, hfollow, hclaimed⟩ := receipt.claimed hrows calls ops w turns
  obtain ⟨x, hx, hanswers⟩ := hfollow i _ hv c hi hgives
  exact ⟨x, hanswers, (hrows.later pf calls ops w turns later).subset (hclaimed.stored i x hx)⟩

theorem Receipt.distinct {calls : List (Request × Operation)} (ops : List SocketOp) (w : World)
    (turns : List (Nat × Bool)) {i j : Nat} (hne : i ≠ j) (hi : calls[i]? = some c)
    (hj : calls[j]? = some c') (hgives : receipt.gives c.2 = true)
    (hgives' : receipt.gives c'.2 = true)
    (hv : (runs Pool.turn (DineFlow.serveLive pf calls ops w) turns).threads[i]? = some (.ret v))
    (hv' : (runs Pool.turn (DineFlow.serveLive pf calls ops w) turns).threads[j]? =
      some (.ret v')) :
    ∃ x y, receipt.answers c x v ∧ receipt.answers c' y v' ∧ key x ≠ key y := by
  obtain ⟨gs, hfollow, hclaimed⟩ := receipt.claimed hrows calls ops w turns
  obtain ⟨x, hx, hanswers⟩ := hfollow i _ hv c hi hgives
  obtain ⟨y, hy, hanswers'⟩ := hfollow j _ hv' c' hj hgives'
  exact ⟨x, y, hanswers, hanswers', fun he => hne (hclaimed.apart i j x y hx hy he)⟩

end Receipts

end DineFlow
