import DineFlow.MenuWrites

namespace DineFlow
open Atomic Relational
set_option autoImplicit true

/-- What a client sends to update a dish: a field that it leaves out is `none`, one that it sets to
null is `some none`. -/
structure UpdateMenuItemForm where
  id : String
  name : Option (Option String) := none
  nameAm : Option (Option String) := none
  description : Option (Option String) := none
  descriptionAm : Option (Option String) := none
  price : Option (Option Rat) := none
  imageUrl : Option (Option String) := none
  prepTime : Option (Option Int) := none
  categoryId : Option (Option String) := none
  restaurantId : Option (Option String) := none
  isAvailable : Option (Option Bool) := none

/-- The input as the service gets it, of which it reads these fields. The partial type keeps the
default of `prepTime`. -/
def UpdateMenuItemForm.input (form : UpdateMenuItemForm) : UpdateMenuItemInput :=
  { form with prepTime := some (form.prepTime.getD (some 0)) }

theorem invalidateMenuCache_keeps (restaurantId : String) :
    (invalidateMenuCache restaurantId).Keeps World.db :=
  invalidateMenuCache_within (R := fun w w' => w'.db = w.db) (fun _ => rfl) (fun _ _ _ => rfl)
    restaurantId

end DineFlow
