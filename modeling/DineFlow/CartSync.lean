import DineFlow.CartKeys
import DineFlow.CartLines
import DineFlow.GuestTokens
import DineFlow.Placement
import DineFlow.Runs

namespace DineFlow.CartStore
open Atomic Relational
open CartPhase (seenCart)
set_option autoImplicit true

/-- Redis has no cart of the guest session with this id. -/
def NoGuestCart (pf : Platform) (u : Uuid) (r : Redis) : Prop :=
  ∀ (session : Env) (tableId : String), session.uuid 0 = u →
    r.get ("guest:cart:" ++ (generateGuestToken pf session tableId).token) = none

/-- The token was made for a session whose id is none of these. -/
def MadeBefore (pf : Platform) (us : List Uuid) (token : String) : Prop :=
  ∃ session tableId, token = (generateGuestToken pf session tableId).token ∧ session.uuid 0 ∉ us

/-- The requests of the page reach a cart that they keep: that of a user, or that of the guest
session that the page has opened. -/
def Live (userId : Option String) (st : CartState) : Prop :=
  (given userId).isSome = true ∨ st.sessionOpen = true

def visibleCart (userId token : Option String) (w : World) : Option Cached :=
  readCart noFault (cartKey userId token) w

/-- The two copies of the cart agree as long as the server's one can be reached. -/
structure Synced (pf : Platform) (userId : Option String) (us : List Uuid) (b : Browser) :
    Prop where
  token : ∀ t, b.store.guestToken = some t → MadeBefore pf us t
  fresh : ∀ u ∈ us, NoGuestCart pf u b.server.redis
  distinct : (b.store.lines.map Prod.fst).Nodup
  named : b.store.lines.Named
  agrees : Live userId b.store →
    Agrees (visibleCart userId b.store.guestToken b.server) b.store.lines

/-- A request on a cart touches nothing else. -/
def Touches (key : Option String) (w w' : World) : Prop :=
  w'.db = w.db ∧ ∀ k, key ≠ some k → w'.redis.get k = w.redis.get k

theorem storeResult_touches (s : Session) (env : Env) (w : World) (r : Except ApiError Cart) :
    Touches (some s.key) w (storeResult s env w r).2 := by
  cases r with
  | error e => exact ⟨rfl, fun _ _ => rfl⟩
  | ok cart => exact ⟨rfl, fun k hk => Redis.get_set_other _ _ fun he => hk (congrArg some he.symm)⟩

theorem addToCart_touches (env : Env) (input : AddToCartInput) (userId guestId : Option String)
    (w : World) : Touches (cartKey userId guestId) w
      ((addToCart env input userId guestId).run noFault w).2 := by
  cases hk : cartKey userId guestId with
  | none =>
    rw [addToCart, getCartKey, hk]
    exact ⟨rfl, fun _ _ => rfl⟩
  | some key =>
    rw [run_addToCart ⟨userId, guestId, key, hk⟩]
    exact storeResult_touches _ _ _ _

theorem removeFromCart_touches (env : Env) (k : String) (userId guestId : Option String)
    (w : World) : Touches (cartKey userId guestId) w
      ((removeFromCart env k userId guestId).run noFault w).2 := by
  cases hk : cartKey userId guestId with
  | none =>
    rw [removeFromCart, getCartKey, hk]
    exact ⟨rfl, fun _ _ => rfl⟩
  | some key =>
    rw [run_removeFromCart ⟨userId, guestId, key, hk⟩]
    exact storeResult_touches _ _ _ _

theorem run_clearCart (userId guestId : Option String) (w : World) :
    ((DineFlow.clearCart userId guestId).run noFault w).2 =
      match cartKey userId guestId with
      | some key => { w with redis := w.redis.del key }
      | none => w := by
  rw [DineFlow.clearCart, getCartKey]
  cases cartKey userId guestId with
  | none => rfl
  | some key => rfl

theorem clearCart_touches (userId guestId : Option String) (w : World) :
    Touches (cartKey userId guestId) w ((DineFlow.clearCart userId guestId).run noFault w).2 := by
  rw [run_clearCart]
  cases cartKey userId guestId with
  | none => exact ⟨rfl, fun _ _ => rfl⟩
  | some key => exact ⟨rfl, fun k hk => Redis.get_del_other _ fun he => hk (congrArg some he.symm)⟩

theorem Touches.fresh (h : Touches (cartKey userId token) w w')
    (ht : ∀ t, token = some t → MadeBefore pf us t) (hf : ∀ u ∈ us, NoGuestCart pf u w.redis) :
    ∀ u ∈ us, NoGuestCart pf u w'.redis := by
  intro u hu session tableId he
  rw [h.2 _ fun hk => ?_]
  · exact hf u hu session tableId he
  · obtain ⟨session', tableId', htoken, hout⟩ := ht _ (cartKey_guest hk)
    rw [← generateGuestToken_session htoken, he] at hout
    exact hout hu

theorem Live.key (h : Live userId st) : ∃ key, cartKey userId st.guestToken = some key := by
  rw [cartKey]
  cases hu : given userId with
  | some u => exact ⟨_, rfl⟩
  | none =>
    rcases h with h | h
    · rw [hu] at h
      cases h
    · obtain ⟨t, ht⟩ := Option.isSome_iff_exists.1 (Bool.and_eq_true_iff.1 h).2
      rw [ht]
      exact ⟨_, rfl⟩

theorem visibleCart_eq (hk : cartKey userId token = some key) (w : World) :
    visibleCart userId token w = seenCart ⟨userId, token, key, hk⟩ w := by
  rw [visibleCart, hk]
  rfl

theorem CartState.lines_ids (st : CartState) :
    st.lines.map Prod.fst = st.items.map CartItem.id := by
  rw [CartState.lines, List.map_map]
  rfl

theorem ensureGuestSession_items (pf : Platform) (session : Env) (tableId : String)
    (st : CartState) (items : List CartItem) :
    ensureGuestSession pf session tableId { st with items := items } =
      { ensureGuestSession pf session tableId st with items := items } := by
  unfold ensureGuestSession
  change (if st.sessionOpen = true then _ else _) = _
  split <;> rfl

theorem sessionOpen_generated (pf : Platform) (session : Env) (tableId : String) (st : CartState) :
    CartState.sessionOpen { st with
      guestToken := some (generateGuestToken pf session tableId).token
      guestSessionReady := true } = true := by
  rw [CartState.sessionOpen, generateGuestToken_given]
  rfl

theorem cartKey_user (h : (given userId).isSome = true) (guestId guestId' : Option String) :
    cartKey userId guestId = cartKey userId guestId' := by
  obtain ⟨u, hu⟩ := Option.isSome_iff_exists.1 h
  rw [cartKey, cartKey, hu]

theorem cartKey_token (h : given userId = none) (pf : Platform) (session : Env)
    (tableId : String) :
    cartKey userId (some (generateGuestToken pf session tableId).token) =
      some ("guest:cart:" ++ (generateGuestToken pf session tableId).token) := by
  rw [cartKey, h, generateGuestToken_given]

/-- After a session has been ensured the page has a cart, and it is the old one or a new one
that is empty. -/
theorem Synced.ensure (h : Synced pf userId (session.uuid 0 :: us) b) (hn : session.uuid 0 ∉ us)
    (tableId : String) :
    (∀ t, (ensureGuestSession pf session tableId b.store).guestToken = some t →
        MadeBefore pf us t) ∧
      Live userId (ensureGuestSession pf session tableId b.store) ∧
      (Agrees (visibleCart userId (ensureGuestSession pf session tableId b.store).guestToken
          b.server) b.store.lines ∨
        ¬Live userId b.store ∧ visibleCart userId
          (ensureGuestSession pf session tableId b.store).guestToken b.server = none) := by
  rw [ensureGuestSession]
  split
  · rename_i hopen
    refine ⟨fun t ht => ?_, .inr hopen, .inl (h.agrees (.inr hopen))⟩
    obtain ⟨session', tableId', rfl, hout⟩ := h.token t ht
    exact ⟨session', tableId', rfl, fun hm => hout (List.mem_cons_of_mem _ hm)⟩
  · rename_i hopen
    refine ⟨fun t ht => ?_, .inr (sessionOpen_generated _ _ _ _), ?_⟩
    · exact ⟨session, tableId, (Option.some.inj ht).symm, hn⟩
    · cases hu : given userId with
      | some u =>
        have huser : (given userId).isSome = true := by rw [hu]; rfl
        have hsame : visibleCart userId (some (generateGuestToken pf session tableId).token)
            b.server = visibleCart userId b.store.guestToken b.server :=
          congrArg (readCart noFault · b.server) (cartKey_user huser _ _)
        rw [hsame]
        exact .inl (h.agrees (.inl huser))
      | none =>
        refine .inr ⟨fun hlive => ?_, ?_⟩
        · rcases hlive with hlive | hlive
          · rw [hu] at hlive
            cases hlive
          · exact hopen hlive
        · have hkey := cartKey_token hu pf session tableId
          rw [visibleCart, hkey]
          change (b.server.redis.get _).map Entry.value = none
          rw [h.fresh _ List.mem_cons_self session tableId rfl]
          rfl

theorem Synced.addItem (h : Synced pf userId (session.uuid 0 :: us) b) (hn : session.uuid 0 ∉ us)
    (hs : Live userId b.store ∨ b.store.items = [])
    (ha : availableItem item.id b.server.db = .ok (some row)) :
    Synced pf userId us (addItem pf userId demoTableId session env item notes b) := by
  obtain ⟨htoken, hlive, hseen⟩ := h.ensure hn ((given b.store.tableId).getD demoTableId)
  have hlines : (addLocal item notes b.store.items).map (fun i => (i.id, i.quantity)) =
      b.store.lines.add item.id :=
    addLocal_lines item notes (b.store.lines_ids ▸ h.distinct)
  have hagree : Agrees (visibleCart userId (ensureGuestSession pf session
      ((given b.store.tableId).getD demoTableId) b.store).guestToken b.server) b.store.lines := by
    rcases hseen with hseen | ⟨hdead, hseen⟩
    · exact hseen
    · rw [hseen]
      exact congrArg (List.map _) (hs.resolve_left hdead)
  rw [CartStore.addItem, ensureGuestSession_items]
  generalize ensureGuestSession pf session ((given b.store.tableId).getD demoTableId) b.store = st
    at htoken hlive hagree
  obtain ⟨key, hk⟩ := hlive.key
  rw [visibleCart_eq hk] at hagree
  have hadded := addToCart_agrees _ env (some (notes.getD "")) hagree h.named ha
  rw [← visibleCart_eq hk] at hadded
  refine ⟨htoken, ?_, ?_, ?_, fun _ => ?_⟩
  · exact (addToCart_touches _ _ _ _ _).fresh htoken fun u hu =>
      h.fresh u (List.mem_cons_of_mem _ hu)
  · rw [CartState.lines, hlines]
    exact Lines.nodup_add h.distinct
  · rw [CartState.lines, hlines]
    exact h.named.add (availableItem_named ha)
  · rw [CartState.lines, hlines]
    exact hadded

theorem Synced.removeItem (h : Synced pf userId us b) (env : Env) (k : String) :
    Synced pf userId us (removeItem userId env k b) := by
  have hlines : CartState.lines { b.store with items := b.store.items.filter fun i => i.id ≠ k } =
      b.store.lines.remove k := localLines_filter k b.store.items
  rw [CartStore.removeItem]
  refine ⟨h.token, ?_, ?_, ?_, fun (hlive : Live userId b.store) => ?_⟩
  · exact (removeFromCart_touches _ _ _ _ _).fresh h.token h.fresh
  · rw [hlines, Lines.remove]
    exact h.distinct.sublist (List.filter_sublist.map _)
  · rw [hlines]
    exact h.named.remove k
  · obtain ⟨key, hk⟩ := hlive.key
    have hagree := h.agrees hlive
    rw [visibleCart_eq hk b.server] at hagree
    have hremoved := removeFromCart_agrees _ env k hagree h.named
    rw [← visibleCart_eq hk] at hremoved
    rw [hlines]
    exact hremoved

theorem Synced.clearCart (h : Synced pf userId us b) :
    Synced pf userId us (clearCart userId b) := by
  rw [CartStore.clearCart]
  refine ⟨h.token, ?_, List.nodup_nil, fun l hl => (by cases hl), fun hlive => ?_⟩
  · exact (clearCart_touches _ _ _).fresh h.token h.fresh
  · obtain ⟨key, hk⟩ := hlive.key
    have hk' : cartKey userId b.store.guestToken = some key := hk
    rw [visibleCart, run_clearCart, hk']
    change Agrees (((b.server.redis.del key).get key).map Entry.value) []
    rw [Redis.get_del_same]
    rfl

end DineFlow.CartStore
