import DineFlow.ListingScope

namespace DineFlow
open Atomic Relational
set_option autoImplicit true

section Patterns

variable {fold : Char → Char}

/-- A character that stands for itself in a pattern. -/
def Plain (c : Char) : Prop := c ≠ '%' ∧ c ≠ '_' ∧ c ≠ '\\'

instance Plain.decidable (c : Char) : Decidable (Plain c) := inferInstanceAs (Decidable (_ ∧ _))

end Patterns

/-- One of the columns contains the text, up to case; a null contains nothing. -/
def mentions (fold : Char → Char) (s : String) (columns : List (Option String)) : Bool :=
  columns.any fun column => column.any fun t => decide (s.toList.map fold <:+: t.toList.map fold)

def MenuItemRow.columns (r : MenuItemRow) : List (Option String) :=
  [some r.name, r.nameAm, r.description, r.descriptionAm]

def UserRow.columns (u : UserRow) : List (Option String) := [some u.name, some u.email]

/-- A search for dishes finds exactly those that mention the text, whatever is stored and whichever
page is asked for. -/
def FindsDishes (pf : Platform) (s : String) : Prop :=
  ∀ (w : World) (plan : RowOrder) (limit offset : Int),
    Lists (fun r => menuItemFromDb r.like) limit offset
      (w.db.menuItems.filter fun r => mentions pf.foldCase s r.columns)
      ((getPaginatedMenuItems pf plan ⟨some s, none, none, none, none, limit, offset⟩).run
        noFault w).1

theorem optTextParam_given (hs : s ≠ "") :
    optTextParam (given (some s)) =
      if Storable s then .ok (some s) else .error .nullCharacter := by
  rw [given_of_ne hs, optTextParam, textParam]
  split <;> rfl

/-- The database refuses a search for a text that it cannot hold. -/
theorem matching_unstorable (pf : Platform) {s : String} (hs : s ≠ "") (h : ¬Storable s)
    (limit offset : Int) (db : Db) :
    (⟨some s, none, none, none, none, limit, offset⟩ : MenuItemsArgs).matching pf db =
      .error .nullCharacter := by
  change MenuItemsArgs.rows pf _ none db = _
  rw [MenuItemsArgs.rows, optTextParam_given hs, if_neg h]
  rfl

theorem Lists.length_eq (h : Lists view 0 0 rows answer) (h' : Lists view' 0 0 rows' answer) :
    rows.length = rows'.length := by
  obtain ⟨sorted, hperm, hanswer⟩ := h
  obtain ⟨sorted', hperm', hanswer'⟩ := h'
  have hcount := congrArg Page.totalCount (Except.ok.inj (hanswer.symm.trans hanswer'))
  rw [← hperm.length_eq, ← hperm'.length_eq]
  exact hcount

theorem FindsDishes.storable {pf : Platform} {s : String} (hs : s ≠ "") (h : FindsDishes pf s) :
    Storable s := by
  by_contra hbad
  obtain ⟨sorted, _, hanswer⟩ := h sampleWorld .stored 0 0
  rw [run_menuPage, matching_unstorable pf hs hbad] at hanswer
  cases hanswer

end DineFlow
