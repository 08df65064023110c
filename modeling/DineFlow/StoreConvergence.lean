import DineFlow.CartSync
import DineFlow.StoreTraffic

namespace DineFlow.CartStore
open Atomic Relational
open CartPhase (seenCart)
set_option autoImplicit true

/-- How many there are of an item. -/
def Lines.quantity (k : String) (ls : Lines) : Int :=
  ((ls.find? fun l => l.1 = k).map Prod.snd).getD 0

theorem Lines.quantity_cons (k : String) (l : String × Int) (ls : Lines) :
    Lines.quantity k (l :: ls) = if l.1 = k then l.2 else ls.quantity k := by
  rw [quantity, List.find?_cons]
  by_cases hl : l.1 = k
  · simp [hl]
  · simp [hl, quantity]

theorem Lines.quantity_add (k k' : String) (ls : Lines) :
    (ls.add k).quantity k' = ls.quantity k' + if k' = k then 1 else 0 := by
  induction ls with
  | nil =>
    rw [add, quantity_cons]
    by_cases hk : k' = k
    · simp [hk, quantity]
    · rw [if_neg (Ne.symm hk), if_neg hk, Int.add_zero]
  | cons l ls ih =>
    rw [add]
    split
    · rename_i hl
      rw [quantity_cons, quantity_cons, hl]
      by_cases hk : k' = k
      · rw [if_pos hk.symm, if_pos hk.symm, if_pos hk]
      · rw [if_neg (Ne.symm hk), if_neg (Ne.symm hk), if_neg hk, Int.add_zero]
    · rename_i hl
      rw [quantity_cons, quantity_cons, ih]
      by_cases hk : l.1 = k'
      · rw [if_pos hk, if_pos hk, if_neg fun he => hl (hk.trans he), Int.add_zero]
      · rw [if_neg hk, if_neg hk]

theorem Lines.quantity_remove (k k' : String) (ls : Lines) :
    (ls.remove k).quantity k' = if k' = k then 0 else ls.quantity k' := by
  rw [quantity, remove, List.find?_filter]
  split
  · rename_i hk
    rw [List.find?_eq_none.2]
    · rfl
    · intro l _
      simp [hk]
  · rename_i hk
    rw [quantity]
    congr 3
    funext l
    by_cases hl : l.1 = k' <;> simp [hl, hk]

/-- Every item is there once, and at least one of it. -/
structure Lines.Proper (ls : Lines) : Prop where
  distinct : (ls.map Prod.fst).Nodup
  positive : ∀ l ∈ ls, 0 < l.2

theorem Lines.Proper.add {ls : Lines} (h : ls.Proper) (k : String) : (ls.add k).Proper := by
  refine ⟨Lines.nodup_add h.distinct, ?_⟩
  have hpos := h.positive
  clear h
  induction ls with
  | nil =>
    intro l hl
    rw [List.mem_singleton.1 hl]
    exact Int.one_pos
  | cons x ls ih =>
    obtain ⟨hx, hls⟩ := List.forall_mem_cons.1 hpos
    rw [Lines.add]
    split
    · exact List.forall_mem_cons.2 ⟨by change 0 < x.2 + 1; omega, hls⟩
    · exact List.forall_mem_cons.2 ⟨hx, ih hls⟩

theorem Lines.Proper.remove {ls : Lines} (h : ls.Proper) (k : String) : (ls.remove k).Proper :=
  ⟨h.distinct.sublist (List.filter_sublist.map _), fun l hl =>
    h.positive l (List.mem_of_mem_filter hl)⟩

theorem Lines.Proper.mem_iff {ls : Lines} (h : ls.Proper) :
    l ∈ ls ↔ ls.quantity l.1 = l.2 ∧ 0 < l.2 := by
  induction ls with
  | nil =>
    refine iff_of_false List.not_mem_nil fun hl => ?_
    have hzero : (0 : Int) = l.2 := hl.1
    omega
  | cons x ls ih =>
    obtain ⟨hx, hls⟩ := List.nodup_cons.1 h.distinct
    obtain ⟨hpos, hposs⟩ := List.forall_mem_cons.1 h.positive
    rw [List.mem_cons, quantity_cons]
    split
    · rename_i he
      constructor
      · rintro (rfl | hl)
        · exact ⟨rfl, hpos⟩
        · exact absurd (he ▸ List.mem_map_of_mem hl) hx
      · rintro ⟨hq, _⟩
        exact .inl (Prod.ext he.symm hq.symm)
    · rename_i he
      rw [← ih ⟨hls, hposs⟩]
      exact or_iff_right fun hl => he (congrArg Prod.fst hl.symm)

/-- Lines are determined by how many there are of each item, up to their order. -/
theorem Lines.Proper.perm {ls ls' : Lines} (h : ls.Proper) (h' : ls'.Proper)
    (hq : ∀ k, ls.quantity k = ls'.quantity k) : ls.Perm ls' := by
  apply (List.perm_ext_iff_of_nodup (h.distinct.of_map _) (h'.distinct.of_map _)).2
  intro l
  rw [h.mem_iff, h'.mem_iff, hq]

/-- The items that a message is going to put into the server's cart, or to take out of it. -/
def Waiting.adds : Waiting → List String
  | .add item _ => [item.id]
  | .order _ _ => []

def Call.adds : Call → List String
  | .guestSession _ next => next.adds
  | .addToCart _ input => [input.menuItemId]
  | _ => []

def Reply.adds : Reply → List String
  | .guestSession _ next => next.adds
  | _ => []

def Call.removes : Call → List String
  | .removeFromCart _ id => [id]
  | _ => []

def Call.isSession : Call → Bool
  | .guestSession _ _ => true
  | _ => false

def Reply.isSession : Reply → Bool
  | .guestSession _ _ => true
  | _ => false

def additions (n : Line) : List String :=
  n.requests.flatMap Call.adds ++ n.replies.flatMap Reply.adds

def removals (n : Line) : List String := n.requests.flatMap Call.removes

/-- How many guest sessions are being opened. -/
def opening (n : Line) : Nat := n.requests.countP Call.isSession + n.replies.countP Reply.isSession

/-- A request that fits what the page has and what its server cart holds: an addition goes to
the open session, and a removal without a session has nothing to remove. -/
def Call.Fits (st : CartState) (ls : Lines) : Call → Prop
  | .guestSession _ next => ∃ item notes, next = .add item notes
  | .addToCart token input =>
    st.sessionOpen = true ∧ token = st.guestToken ∧ input.quantity = 1
  | .removeFromCart token id => token = st.guestToken ∨ token = none ∧ ls.quantity id = 0
  | .placeOrder _ _ => False

/-- A reply with a session brings a token that has no cart yet. -/
def Reply.Fits (w : World) : Reply → Prop
  | .guestSession token next => (∃ item notes, next = .add item notes) ∧
      given (some token) = some token ∧ w.redis.get ("guest:cart:" ++ token) = none
  | .synced => True
  | .placeOrder _ => False

/-- What the page shows is what its server cart holds together with what is on its way. -/
structure Balanced (n : Line) (ls : Lines) : Prop where
  shown : n.client.lines.Proper
  kept : ls.Proper
  named : ls.Named
  agrees : Agrees (visibleCart none n.client.guestToken n.server) ls
  requests : ∀ m ∈ n.requests, m.Fits n.client ls
  replies : ∀ b ∈ n.replies, b.Fits n.server
  open_quiet : n.client.sessionOpen = true → opening n = 0
  closed : n.client.sessionOpen = false → n.client.guestToken = none ∧ opening n ≤ 1
  apart : ∀ k ∈ removals n, k ∉ additions n
  available : ∀ k ∈ additions n, ∃ row, availableItem k n.server.db = .ok (some row)
  balance : ∀ k, n.client.lines.quantity k =
    if k ∈ removals n then 0 else ls.quantity k + (additions n).count k

/-- The invariant depends on the messages through what they are going to do only. -/
theorem Balanced.reshape (h : Balanced n ls) {ms : List Call} {bs : List Reply}
    (hadd : (additions n).Perm (additions { n with requests := ms, replies := bs }))
    (hrem : (removals n).Perm (removals { n with requests := ms, replies := bs }))
    (hopen : opening { n with requests := ms, replies := bs } = opening n)
    (hms : ∀ m ∈ ms, m.Fits n.client ls) (hbs : ∀ b ∈ bs, b.Fits n.server) :
    Balanced { n with requests := ms, replies := bs } ls := by
  refine ⟨h.shown, h.kept, h.named, h.agrees, hms, hbs, fun ho => hopen.trans (h.open_quiet ho),
    fun hc => ⟨(h.closed hc).1, hopen ▸ (h.closed hc).2⟩, fun k hk hk' =>
      h.apart k (hrem.mem_iff.2 hk) (hadd.mem_iff.2 hk'), fun k hk =>
      h.available k (hadd.mem_iff.2 hk), fun k => ?_⟩
  rw [← hadd.count_eq]
  simp only [← hrem.mem_iff]
  exact h.balance k

theorem Balanced.of_perm (h : Balanced n ls) (hm : n.requests.Perm ms) (hb : n.replies.Perm bs) :
    Balanced { n with requests := ms, replies := bs } ls := by
  refine h.reshape ((hm.flatMap_right _).append (hb.flatMap_right _)) (hm.flatMap_right _) ?_
    (fun m hm' => h.requests m (hm.mem_iff.2 hm')) fun b hb' => h.replies b (hb.mem_iff.2 hb')
  rw [opening, opening, hm.countP_eq, hb.countP_eq]

theorem Call.Fits.of_same {m : Call} (h : m.Fits st ls) (ho : st'.sessionOpen = st.sessionOpen)
    (ht : st'.guestToken = st.guestToken) : m.Fits st' ls := by
  cases m with
  | guestSession tableId next => exact h
  | addToCart token input => exact ⟨ho.trans h.1, h.2.1.trans ht.symm, h.2.2⟩
  | removeFromCart token k => exact h.imp_left fun he => he.trans ht.symm
  | placeOrder token input => exact h

theorem removals_send (n : Line) (st : CartState) (m : Call) :
    removals { n with client := st, requests := n.requests ++ [m] } = removals n ++ m.removes := by
  rw [removals, List.flatMap_append, List.flatMap_singleton]
  rfl

theorem additions_send (n : Line) (st : CartState) (m : Call) :
    (additions { n with client := st, requests := n.requests ++ [m] }).Perm
      (additions n ++ m.adds) := by
  rw [additions, List.flatMap_append, List.flatMap_singleton, List.append_assoc, additions,
    List.append_assoc]
  exact List.perm_append_comm.append_left _

theorem opening_send (n : Line) (st : CartState) (m : Call) :
    opening { n with client := st, requests := n.requests ++ [m] } =
      opening n + if m.isSession then 1 else 0 := by
  rw [opening, List.countP_append, List.countP_singleton, opening]
  exact Nat.add_right_comm _ _ _

theorem Balanced.send (h : Balanced n ls) (st : CartState)
    (ho : st.sessionOpen = n.client.sessionOpen) (ht : st.guestToken = n.client.guestToken)
    {m : Call} (hm : m.Fits st ls)
    (hshown : st.lines.Proper)
    (hsession : m.isSession = true → n.client.sessionOpen = false ∧ opening n = 0)
    (hadds : ∀ k ∈ m.adds, k ∉ removals n ∧ k ∉ m.removes ∧
      ∃ row, availableItem k n.server.db = .ok (some row))
    (hremoves : ∀ k ∈ m.removes, k ∉ additions n)
    (hlines : ∀ k, st.lines.quantity k =
      if k ∈ m.removes then 0 else n.client.lines.quantity k + m.adds.count k) :
    Balanced { n with client := st, requests := n.requests ++ [m] } ls := by
  have hadd := additions_send n st m
  refine ⟨hshown, h.kept, h.named, ht ▸ h.agrees, fun m' hm' => ?_, h.replies, fun hopen => ?_,
    fun hclosed => ?_, fun k hk hk' => ?_, fun k hk => ?_, fun k => ?_⟩
  · rcases List.mem_append.1 hm' with hm' | hm'
    · exact (h.requests m' hm').of_same ho ht
    · rw [List.mem_singleton.1 hm']
      exact hm
  · rw [opening_send, h.open_quiet (ho.symm.trans hopen), if_neg]
    intro hs
    rw [← ho, hopen] at hsession
    cases (hsession hs).1
  · obtain ⟨hnone, hle⟩ := h.closed (ho.symm.trans hclosed)
    refine ⟨ht.trans hnone, ?_⟩
    rw [opening_send]
    split
    · rename_i hs
      rw [(hsession hs).2]
    · exact hle
  · rw [removals_send] at hk
    rw [hadd.mem_iff] at hk'
    rcases List.mem_append.1 hk with hk | hk
    · rcases List.mem_append.1 hk' with hk' | hk'
      · exact h.apart k hk hk'
      · exact (hadds k hk').1 hk
    · rcases List.mem_append.1 hk' with hk' | hk'
      · exact hremoves k hk hk'
      · exact (hadds k hk').2.1 hk
  · rcases List.mem_append.1 (hadd.mem_iff.1 hk) with hk | hk
    · exact h.available k hk
    · exact (hadds k hk).2.2
  · rw [hlines k, h.balance k, removals_send, hadd.count_eq, List.count_append]
    by_cases hr : k ∈ m.removes
    · rw [if_pos hr, if_pos (List.mem_append_right _ hr)]
    · rw [if_neg hr]
      by_cases hk : k ∈ removals n
      · have hno : m.adds.count k = 0 := List.count_eq_zero.2 fun hka => (hadds k hka).1 hk
        rw [if_pos hk, if_pos (List.mem_append_left _ hk), hno]
        rfl
      · rw [if_neg hk, if_neg fun hka => (List.mem_append.1 hka).elim hk hr]
        push_cast
        exact Int.add_assoc _ _ _

theorem Balanced.sendAdd (h : Balanced n ls) (st : CartState)
    (hst : st.sessionOpen = n.client.sessionOpen) (ht : st.guestToken = n.client.guestToken)
    (hlines : st.lines = n.client.lines.add item.id)
    (hk : item.id ∉ removals n) (ho : n.client.sessionOpen = true ∨ opening n = 0)
    (ha : ∃ row, availableItem item.id n.server.db = .ok (some row)) (tableId : String)
    (notes : Option String) :
    Balanced { n with
      client := st, requests := n.requests ++ [Waiting.send st tableId (.add item notes)] } ls := by
  have hbalance (k : String) : st.lines.quantity k =
      if k ∈ ([] : List String) then 0 else n.client.lines.quantity k + [item.id].count k := by
    rw [if_neg List.not_mem_nil, hlines, Lines.quantity_add, List.count_singleton]
    by_cases hki : k = item.id
    · simp [hki]
    · simp [hki, Ne.symm hki]
  have hadds : ∀ k ∈ [item.id], k ∉ removals n ∧ k ∉ ([] : List String) ∧
      ∃ row, availableItem k n.server.db = .ok (some row) :=
    List.forall_mem_singleton.2 ⟨hk, List.not_mem_nil, ha⟩
  have hproper : st.lines.Proper := hlines ▸ h.shown.add _
  have hnone : ∀ k ∈ ([] : List String), k ∉ additions n := fun k hk => by cases hk
  rw [Waiting.send, hst]
  by_cases hopen : n.client.sessionOpen = true
  · rw [if_pos hopen]
    exact h.send st hst ht ⟨hst.trans hopen, rfl, rfl⟩ hproper (fun hs => by cases hs) hadds hnone
      hbalance
  · rw [if_neg hopen]
    exact h.send st hst ht ⟨item, notes, rfl⟩ hproper
      (fun _ => ⟨Bool.eq_false_iff.2 hopen, ho.resolve_left hopen⟩) hadds hnone hbalance

theorem Balanced.addItem (h : Balanced n ls) (hk : item.id ∉ removals n)
    (ho : n.client.sessionOpen = true ∨ opening n = 0)
    (ha : ∃ row, availableItem item.id n.server.db = .ok (some row)) :
    Balanced ((traffic pf none demoTableId).acted (.addItem item notes) n) ls :=
  h.sendAdd { n.client with items := addLocal item notes n.client.items } rfl rfl
    (addLocal_lines item notes (n.client.lines_ids ▸ h.shown.distinct)) hk ho ha _ _

theorem Balanced.sendRemove (h : Balanced n ls) (st : CartState)
    (hst : st.sessionOpen = n.client.sessionOpen) (ht : st.guestToken = n.client.guestToken)
    (hlines : st.lines = n.client.lines.remove k) (hk : k ∉ additions n) :
    Balanced { n with
      client := st, requests := n.requests ++ [.removeFromCart st.guestToken k] } ls := by
  have hfits : (Call.removeFromCart st.guestToken k).Fits st ls := .inl rfl
  refine h.send st hst ht hfits ?_ (fun hs => by cases hs) (fun _ hk' => by cases hk')
    (List.forall_mem_singleton.2 hk) fun k' => ?_
  · rw [hlines]
    exact h.shown.remove k
  · change _ = if k' ∈ [k] then 0 else n.client.lines.quantity k' + 0
    rw [hlines, Lines.quantity_remove, Int.add_zero]
    simp only [List.mem_singleton]

theorem Balanced.removeItem (h : Balanced n ls) (hk : k ∉ additions n) :
    Balanced ((traffic pf none demoTableId).acted (.removeItem k) n) ls :=
  h.sendRemove { n.client with items := n.client.items.filter fun i => i.id ≠ k } rfl rfl
    (localLines_filter k n.client.items) hk

theorem Balanced.serveSession
    (h : Balanced { n with requests := .guestSession tableId next :: rest } ls)
    (hfresh : n.server.redis.get
      ("guest:cart:" ++ (generateGuestToken pf env tableId).token) = none) :
    Balanced ((traffic pf none demoTableId).served env (.guestSession tableId next) rest n) ls := by
  obtain ⟨hnext, hrest⟩ := List.forall_mem_cons.1 h.requests
  refine h.reshape ?_ (.refl _) ?_ hrest ?_
  · change (next.adds ++ rest.flatMap Call.adds ++ n.replies.flatMap Reply.adds).Perm
      (rest.flatMap Call.adds ++ (n.replies ++ [_]).flatMap Reply.adds)
    rw [List.flatMap_append, List.flatMap_singleton, List.append_assoc]
    exact List.perm_append_comm.trans (.of_eq (List.append_assoc _ _ _))
  · change rest.countP _ + (n.replies ++ [_]).countP _ =
      (.guestSession tableId next :: rest).countP _ + n.replies.countP _
    rw [List.countP_append, List.countP_singleton, List.countP_cons]
    exact (Nat.add_assoc _ _ _).symm.trans (Nat.add_right_comm _ _ _)
  · intro b hb
    rcases List.mem_append.1 hb with hb | hb
    · exact h.replies b hb
    · rw [List.mem_singleton.1 hb]
      exact ⟨hnext, generateGuestToken_given _ _ _, hfresh⟩

theorem no_session_reply (h : Balanced n ls) (ho : n.client.sessionOpen = true)
    (hb : b ∈ n.replies) : b.Fits w := by
  have hfits := h.replies b hb
  cases b with
  | synced => trivial
  | placeOrder outcome => exact hfits
  | guestSession token next =>
    have hzero := (Nat.add_eq_zero_iff.1 (h.open_quiet ho)).2
    exact absurd rfl (List.countP_eq_zero.1 hzero _ hb)

theorem Balanced.settle {n : Line} {m : Call} {rest : List Call}
    (h : Balanced { n with requests := m :: rest } ls) {w : World}
    (hdb : w.db = n.server.db) (hs : m.isSession = false)
    (hagrees : Agrees (visibleCart none n.client.guestToken w) ls') (hkept : ls'.Proper)
    (hnamed : ls'.Named) (hrest : ∀ m' ∈ rest, m'.Fits n.client ls')
    (hreplies : ∀ b ∈ n.replies, b.Fits w)
    (hlines : ∀ k, ls'.quantity k = if k ∈ m.removes then 0 else ls.quantity k + m.adds.count k) :
    Balanced { n with server := w, requests := rest, replies := n.replies ++ [.synced] } ls' := by
  generalize hn : ({ n with
    server := w, requests := rest, replies := n.replies ++ [.synced] } : Line) = n'
  have hadd : additions { n with requests := m :: rest } = m.adds ++ additions n' := by
    rw [← hn, additions, additions, List.flatMap_append, List.flatMap_cons, List.append_assoc]
    simp [Reply.adds]
  have hrem : removals { n with requests := m :: rest } = m.removes ++ removals n' := by
    rw [← hn]
    rfl
  have hopen : opening n' = opening { n with requests := m :: rest } := by
    rw [← hn]
    change rest.countP _ + (n.replies ++ [_]).countP _ =
      (m :: rest).countP Call.isSession + n.replies.countP _
    have hm : (m :: rest).countP Call.isSession = rest.countP Call.isSession :=
      List.countP_cons_of_neg (by rw [hs]; decide)
    rw [hm, List.countP_append, List.countP_singleton]
    rfl
  have hapart (k : String) (hk : k ∈ m.removes ++ removals n') : k ∉ additions n' := fun hka =>
    h.apart k (hrem ▸ hk) (hadd ▸ List.mem_append_right _ hka)
  have hbalance (k : String) : n.client.lines.quantity k =
      if k ∈ removals n' then 0 else ls'.quantity k + (additions n').count k := by
    rw [h.balance k, hadd, hrem, hlines k, List.count_append]
    by_cases hk : k ∈ removals n'
    · rw [if_pos hk, if_pos (List.mem_append_right _ hk)]
    · rw [if_neg hk]
      by_cases hm : k ∈ m.removes
      · have hzero : (additions n').count k = 0 :=
          List.count_eq_zero.2 (hapart k (List.mem_append_left _ hm))
        rw [if_pos hm, if_pos (List.mem_append_left _ hm), hzero]
        rfl
      · rw [if_neg hm, if_neg fun hka => (List.mem_append.1 hka).elim hm hk]
        push_cast
        exact (Int.add_assoc _ _ _).symm
  have havailable (k : String) (hk : k ∈ additions n') :
      ∃ row, availableItem k w.db = .ok (some row) := by
    rw [hdb]
    exact h.available k (hadd ▸ List.mem_append_right _ hk)
  subst hn
  refine ⟨h.shown, hkept, hnamed, hagrees, hrest, fun b hb => ?_, fun ho => ?_, fun hc => ?_,
    fun k hk => hapart k (List.mem_append_right _ hk), havailable, hbalance⟩
  · rcases List.mem_append.1 hb with hb | hb
    · exact hreplies b hb
    · rw [List.mem_singleton.1 hb]
      trivial
  · exact hopen.trans (h.open_quiet ho)
  · exact ⟨(h.closed hc).1, hopen ▸ (h.closed hc).2⟩

theorem Call.Fits.of_lines {m : Call} (h : m.Fits st ls)
    (hq : ∀ k ∈ m.removes, ls.quantity k = 0 → ls'.quantity k = 0) : m.Fits st ls' := by
  cases m with
  | guestSession tableId next => exact h
  | addToCart token input => exact h
  | removeFromCart token k => exact h.imp_right fun hk => ⟨hk.1, hq k List.mem_cons_self hk.2⟩
  | placeOrder token input => exact h

theorem Balanced.serveAdd {n : Line} {rest : List Call}
    (h : Balanced { n with requests := .addToCart token input :: rest } ls) :
    Balanced ((traffic pf none demoTableId).served env (.addToCart token input) rest n)
      (ls.add input.menuItemId) := by
  obtain ⟨⟨hopen, htoken, hone⟩, hrest⟩ := List.forall_mem_cons.1 h.requests
  change token = n.client.guestToken at htoken
  subst htoken
  obtain ⟨k, quantity, notes⟩ := input
  change quantity = 1 at hone
  subst hone
  have hk : k ∈ additions { n with
      requests := .addToCart n.client.guestToken ⟨k, 1, notes⟩ :: rest } :=
    List.mem_cons_self
  obtain ⟨row, hrow⟩ := h.available k hk
  obtain ⟨key, hkey⟩ : ∃ key, cartKey none n.client.guestToken = some key := Live.key (.inr hopen)
  have hagree := h.agrees
  rw [visibleCart_eq hkey] at hagree
  have hadded := addToCart_agrees _ env notes hagree h.named hrow
  rw [← visibleCart_eq hkey] at hadded
  have htouch := addToCart_touches env ⟨k, 1, notes⟩ none n.client.guestToken n.server
  refine h.settle htouch.1 rfl hadded (h.kept.add k) (h.named.add (availableItem_named hrow))
    (fun m hm => (hrest m hm).of_lines fun k' hk' hzero => ?_)
    (fun b hb => no_session_reply h hopen hb) fun k' => ?_
  · have hne : k' ≠ k := by
      rintro rfl
      exact h.apart k' (List.mem_flatMap.2 ⟨m, List.mem_cons_of_mem _ hm, hk'⟩) hk
    rw [Lines.quantity_add, hzero, if_neg hne]
    rfl
  · change _ = if k' ∈ [] then 0 else ls.quantity k' + ([k].count k' : Nat)
    rw [if_neg List.not_mem_nil, Lines.quantity_add, List.count_singleton]
    by_cases hki : k' = k
    · simp [hki]
    · simp [hki, Ne.symm hki]

theorem visibleCart_congr {w w' : World} (h : ∀ k, w'.redis.get k = w.redis.get k)
    (userId token : Option String) : visibleCart userId token w' = visibleCart userId token w := by
  rw [visibleCart, visibleCart]
  cases cartKey userId token with
  | none => rfl
  | some key => exact congrArg (Option.map Entry.value) (h key)

theorem Agrees.quantity_none (h : Agrees none ls) (k : String) : ls.quantity k = 0 := by
  cases (h : ls = [])
  rfl

theorem Balanced.serveRemove {n : Line} {rest : List Call}
    (h : Balanced { n with requests := .removeFromCart token k :: rest } ls) :
    ∃ ls', Balanced ((traffic pf none demoTableId).served env (.removeFromCart token k) rest n)
      ls' := by
  obtain ⟨hfits, hrest⟩ := List.forall_mem_cons.1 h.requests
  change token = n.client.guestToken ∨ token = none ∧ ls.quantity k = 0 at hfits
  have htouch := removeFromCart_touches env k none token n.server
  have hcase : token = none ∧ ls.quantity k = 0 ∨
      token = n.client.guestToken ∧ n.client.sessionOpen = true := by
    cases ho : n.client.sessionOpen with
    | true => exact hfits.symm.imp_right fun ht => ⟨ht, rfl⟩
    | false =>
      have hnone : n.client.guestToken = none := (h.closed ho).1
      have hagree := h.agrees
      change Agrees (visibleCart none n.client.guestToken n.server) ls at hagree
      rw [hnone] at hagree hfits
      exact .inl ⟨hfits.elim id And.left, hagree.quantity_none k⟩
  rcases hcase with ⟨rfl, hzero⟩ | ⟨rfl, hopen⟩
  · -- without a token there is no cart, and the page has none of the item on the server
    have hsame (key : String) := htouch.2 key (by rintro ⟨⟩)
    refine ⟨ls, h.settle htouch.1 rfl ?_ h.kept h.named hrest (fun b hb => ?_) fun k' => ?_⟩
    · exact (visibleCart_congr hsame none n.client.guestToken).symm ▸ h.agrees
    · have hb := h.replies b hb
      cases b with
      | guestSession token next => exact ⟨hb.1, hb.2.1, (hsame _).trans hb.2.2⟩
      | synced => trivial
      | placeOrder outcome => exact hb
    · change _ = if k' ∈ [k] then 0 else ls.quantity k' + 0
      rw [Int.add_zero]
      split
      · rename_i hk'
        rw [List.mem_singleton.1 hk', hzero]
      · rfl
  · obtain ⟨key, hkey⟩ : ∃ key, cartKey none n.client.guestToken = some key := Live.key (.inr hopen)
    have hagree := h.agrees
    rw [visibleCart_eq hkey] at hagree
    have hremoved := removeFromCart_agrees _ env k hagree h.named
    rw [← visibleCart_eq hkey] at hremoved
    refine ⟨ls.remove k, h.settle htouch.1 rfl hremoved (h.kept.remove k) (h.named.remove k)
      (fun m hm => (hrest m hm).of_lines fun k' _ hzero => ?_)
      (fun b hb => no_session_reply h hopen hb) fun k' => ?_⟩
    · rw [Lines.quantity_remove, hzero, ite_self]
    · change _ = if k' ∈ [k] then 0 else ls.quantity k' + 0
      rw [Lines.quantity_remove, Int.add_zero]
      simp only [List.mem_singleton]

theorem Balanced.receiveSession {n : Line} {rest : List Reply}
    (h : Balanced { n with replies := .guestSession token next :: rest } ls) :
    Balanced ((traffic pf none demoTableId).received (.guestSession token next) rest n) ls := by
  obtain ⟨⟨⟨item, notes, rfl⟩, hgiven, hget⟩, hrest⟩ := List.forall_mem_cons.1 h.replies
  have hcount : opening { n with replies := .guestSession token (.add item notes) :: rest } =
      n.requests.countP Call.isSession + (rest.countP Reply.isSession + 1) := by
    rw [opening]
    exact congrArg _ (List.countP_cons_of_pos rfl)
  have hclosed : n.client.sessionOpen = false := by
    rw [Bool.eq_false_iff]
    intro ho
    have hzero := h.open_quiet ho
    omega
  obtain ⟨hnone, hle⟩ := h.closed hclosed
  have hempty : ls = [] := by
    have hagree := h.agrees
    rw [hnone] at hagree
    exact hagree
  subst hempty
  let st : CartState := { n.client with guestToken := some token, guestSessionReady := true }
  have hopen : st.sessionOpen = true := by
    rw [CartState.sessionOpen, hgiven]
    rfl
  have hkey : cartKey none (some token) = some ("guest:cart:" ++ token) := by
    rw [cartKey, hgiven]
    rfl
  let call : Call := .addToCart (some token) ⟨item.id, 1, some (notes.getD "")⟩
  have hadd : additions { n with client := st, requests := n.requests ++ [call], replies := rest } =
      additions { n with replies := .guestSession token (.add item notes) :: rest } := by
    rw [additions, additions, List.flatMap_append, List.append_assoc]
    rfl
  have hrem : removals { n with client := st, requests := n.requests ++ [call], replies := rest } =
      removals { n with replies := .guestSession token (.add item notes) :: rest } := by
    rw [removals, List.flatMap_append]
    exact List.append_nil _
  refine ⟨h.shown, h.kept, h.named, ?_, fun m hm => ?_, hrest, fun _ => ?_, fun hc => ?_, ?_, ?_,
    ?_⟩
  · change Agrees (visibleCart none (some token) n.server) []
    rw [visibleCart, hkey]
    change Agrees ((n.server.redis.get _).map Entry.value) []
    rw [hget]
    rfl
  · rcases List.mem_append.1 hm with hm | hm
    · have hfits := h.requests m hm
      cases m with
      | guestSession tableId next => exact hfits
      | addToCart token' input => cases hclosed.symm.trans hfits.1
      | removeFromCart token' k =>
        exact .inr ⟨hfits.elim (fun he => he.trans hnone) And.left, rfl⟩
      | placeOrder token' input => exact hfits
    · rw [List.mem_singleton.1 hm]
      exact ⟨hopen, rfl, rfl⟩
  · change (n.requests ++ [_]).countP _ + rest.countP _ = 0
    rw [List.countP_append]
    change n.requests.countP _ + 0 + rest.countP _ = 0
    omega
  · cases hopen.symm.trans hc
  · exact hadd.symm ▸ hrem.symm ▸ h.apart
  · exact hadd.symm ▸ h.available
  · exact hadd.symm ▸ hrem.symm ▸ h.balance

theorem Balanced.receiveSynced {n : Line} {rest : List Reply}
    (h : Balanced { n with replies := .synced :: rest } ls) :
    Balanced ((traffic pf none demoTableId).received .synced rest n) ls := by
  have hrest := (List.forall_mem_cons.1 h.replies).2
  have hsame : ({ n with requests := n.requests ++ [], replies := rest } : Line) =
      { n with replies := rest } := by rw [List.append_nil]
  change Balanced { n with requests := n.requests ++ [], replies := rest } ls
  rw [hsame]
  exact h.reshape (.refl _) (.refl _) rfl h.requests hrest

/-- A run of additions and removals, in which every session that is opened is a new one. -/
def Plain (pf : Platform) (n : Line) : Move Tap Env → Prop
  | .act (.placeOrder _ _) => False
  | .serve i env => ∀ tableId next, n.requests[i]? = some (.guestSession tableId next) →
      n.server.redis.get ("guest:cart:" ++ (generateGuestToken pf env tableId).token) = none
  | _ => True

/-- An action that nothing on its way can cross: an addition of an available dish that opens no
second session and meets no removal of the dish, or a removal that meets no addition. -/
def Orderly (n : Line) : Move Tap Env → Prop
  | .act (.addItem item _) => (∃ row, availableItem item.id n.server.db = .ok (some row)) ∧
      (n.client.sessionOpen = true ∨ opening n = 0) ∧ item.id ∉ removals n
  | .act (.removeItem k) => k ∉ additions n
  | _ => True

theorem Balanced.serve {n : Line} {rest : List Call}
    (h : Balanced { n with requests := m :: rest } ls)
    (hfresh : ∀ tableId next, m = .guestSession tableId next → n.server.redis.get
      ("guest:cart:" ++ (generateGuestToken pf env tableId).token) = none) :
    ∃ ls', Balanced ((traffic pf none demoTableId).served env m rest n) ls' := by
  cases m with
  | guestSession tableId next => exact ⟨ls, h.serveSession (hfresh tableId next rfl)⟩
  | addToCart token input => exact ⟨_, h.serveAdd⟩
  | removeFromCart token k => exact h.serveRemove
  | placeOrder token input => exact (h.requests _ List.mem_cons_self).elim

theorem Balanced.receive {n : Line} {rest : List Reply}
    (h : Balanced { n with replies := b :: rest } ls) :
    Balanced ((traffic pf none demoTableId).received b rest n) ls := by
  cases b with
  | guestSession token next => exact h.receiveSession
  | synced => exact h.receiveSynced
  | placeOrder outcome => exact (h.replies _ List.mem_cons_self).elim

/-- Every move of an orderly run keeps the balance. -/
theorem Balanced.step (h : Balanced n ls) (hp : Plain pf n mv) (ho : Orderly n mv) :
    ∃ ls', Balanced ((traffic pf none demoTableId).step n mv) ls' := by
  refine Exchange.step_keeps (I := fun n => ∃ ls, Balanced n ls) mv ⟨ls, h⟩ (fun a ha => ?_)
    (fun i env m rest hmv hm hperm => ?_) fun b rest hperm => ⟨ls, ?_⟩
  · subst ha
    cases a with
    | addItem item notes => exact ⟨ls, h.addItem ho.2.2 ho.2.1 ho.1⟩
    | removeItem k => exact ⟨ls, h.removeItem ho⟩
    | placeOrder tableId specialInstructions => exact hp.elim
  · subst hmv
    refine (h.of_perm hperm (.refl _)).serve fun tableId next he => ?_
    exact hp tableId next (hm.trans (congrArg some he))
  · exact (h.of_perm (.refl _) hperm).receive

theorem balanced_initial (w : World) : Balanced ⟨.initial, w, [], []⟩ [] where
  shown := ⟨List.nodup_nil, fun _ hl => by cases hl⟩
  kept := ⟨List.nodup_nil, fun _ hl => by cases hl⟩
  named := fun _ hl => by cases hl
  agrees := rfl
  requests := fun _ hm => by cases hm
  replies := fun _ hb => by cases hb
  open_quiet := fun _ => rfl
  closed := fun _ => ⟨rfl, Nat.zero_le _⟩
  apart := fun _ hk => by cases hk
  available := fun _ hk => by cases hk
  balance := fun _ => rfl

/-- What Redis has for a session are these lines, in any order. -/
def SameLines : Option Cached → Lines → Prop
  | none, ls => ls = []
  | some (.cart c), ls => (serverLines c.items).Perm ls
  | some _, _ => False

instance SameLines.decidable : ∀ seen ls, Decidable (SameLines seen ls)
  | none, ls => inferInstanceAs (Decidable (ls = []))
  | some (.cart c), ls => inferInstanceAs (Decidable ((serverLines c.items).Perm ls))
  | some (.menu _), _ => .isFalse id
  | some (.items _), _ => .isFalse id

theorem SameLines.of_agrees (h : Agrees seen ls) (hp : ls.Perm ls') : SameLines seen ls' := by
  cases seen with
  | none =>
    cases (h : ls = [])
    exact hp.nil_eq.symm
  | some c =>
    cases c with
    | cart c => exact (.of_eq h : List.Perm _ _).trans hp
    | menu m => exact h.elim
    | items rows => exact h.elim

/-- Once nothing is on its way, the server's cart of the token that the page holds is the
local one. -/
def Converged (n : Line) : Prop :=
  n.Quiet → SameLines (visibleCart none n.client.guestToken n.server) n.client.lines

instance Converged.decidable (n : Line) : Decidable (Converged n) :=
  inferInstanceAs (Decidable (n.Quiet → _))

theorem Balanced.converged (h : Balanced n ls) : Converged n := by
  rintro ⟨hm, hb⟩
  have hadd : additions n = [] := by rw [additions, hm, hb]; rfl
  have hrem : removals n = [] := by rw [removals, hm]; rfl
  refine .of_agrees h.agrees (h.kept.perm h.shown fun k => ?_)
  rw [h.balance k, hadd, hrem, if_neg List.not_mem_nil]
  exact (Int.add_zero _).symm

/-- The page and the server converge as long as no action crosses what is on its way. -/
theorem sync_converges (pf : Platform) (demoTableId : String) (w : World)
    (moves : List (Move Tap Env))
    (hplain : Guarded (traffic pf none demoTableId).step (Plain pf) ⟨.initial, w, [], []⟩ moves)
    (horderly : Guarded (traffic pf none demoTableId).step Orderly ⟨.initial, w, [], []⟩ moves) :
    Converged (runs (traffic pf none demoTableId).step ⟨.initial, w, [], []⟩ moves) := by
  obtain ⟨ls, hls⟩ := (hplain.and horderly).runs (I := fun n => ∃ ls, Balanced n ls)
    ⟨[], balanced_initial w⟩ fun n mv h hok => h.elim fun ls hls => hls.step hok.1 hok.2
  exact hls.converged

/-- The dish of the sample menu, as the page puts it into the cart. -/
def tapDish : Move Tap Env := .act (.addItem ⟨(sampleId 4).text, "Injera", 1, none⟩ none)

/-- The server answers the first request; the uuid is the one it draws for a session. -/
def answerFirst (u : Uuid) : Move Tap Env := .serve 0 { sampleEnv with uuid := fun _ => u }

/-- The dish is put in twice before the first session is there: each addition opens its own. -/
def tappedTwice : List (Move Tap Env) :=
  [tapDish, tapDish, answerFirst (sampleId 6), answerFirst (sampleId 7), .receive 0, .receive 0,
    answerFirst (sampleId 8), answerFirst (sampleId 9), .receive 0, .receive 0]

def tappedLine : Line :=
  runs (traffic samplePlatform none "").step ⟨.initial, sampleWorld, [], []⟩ tappedTwice

theorem sync_diverges :
    Guarded (traffic samplePlatform none "").step (Plain samplePlatform)
        ⟨.initial, sampleWorld, [], []⟩ tappedTwice ∧ ¬Converged tappedLine := by
  constructor
  · refine ⟨trivial, trivial, fun _ _ _ => rfl, fun _ _ _ => rfl, trivial, trivial, ?_, ?_, trivial,
      trivial, trivial⟩
    · intro tableId next h
      cases h
    · intro tableId next h
      cases h
  · decide +kernel

/-- The dish is put in once, and everything on its way arrives. -/
def tappedOnce : List (Move Tap Env) :=
  [tapDish, answerFirst (sampleId 6), .receive 0, answerFirst (sampleId 8), .receive 0]

/-- The dish is put in once more after that. -/
def tappedAgain : List (Move Tap Env) :=
  tappedOnce ++ [tapDish, answerFirst (sampleId 9), .receive 0]

def againLine : Line :=
  runs (traffic samplePlatform none "").step ⟨.initial, sampleWorld, [], []⟩ tappedAgain

theorem tappedAgain_plain :
    Guarded (traffic samplePlatform none "").step (Plain samplePlatform)
      ⟨.initial, sampleWorld, [], []⟩ tappedAgain := by
  refine ⟨trivial, fun _ _ _ => rfl, trivial, ?_, trivial, trivial, ?_, trivial, trivial⟩
  · intro tableId next h
    cases h
  · intro tableId next h
    cases h

theorem tappedAgain_orderly :
    Guarded (traffic samplePlatform none "").step Orderly ⟨.initial, sampleWorld, [], []⟩
      tappedAgain := by
  let dish : MenuItemRow :=
    ⟨sampleId 4, sampleId 1, sampleId 3, "Injera", none, none, none, 1, none, true, none, 0, 0⟩
  refine ⟨⟨⟨dish, ?_⟩, .inr rfl, List.not_mem_nil⟩, trivial, trivial, trivial, trivial,
    ⟨⟨dish, ?_⟩, .inl ?_, ?_⟩, trivial, trivial, trivial⟩
  all_goals decide +kernel

theorem sync_converges_sample :
    againLine.Quiet ∧ againLine.client.lines.map Prod.snd = [2] ∧ Converged againLine := by
  refine ⟨by decide +kernel, by decide +kernel, ?_⟩
  have hplain := tappedAgain_plain
  have horderly := tappedAgain_orderly
  rw [againLine]
  -- otherwise the elaborator runs the moves
  generalize tappedAgain = moves at hplain horderly ⊢
  exact sync_converges samplePlatform "" sampleWorld moves hplain horderly

end DineFlow.CartStore
