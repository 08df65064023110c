import DineFlow.Database

namespace DineFlow.Seed
open Relational
set_option autoImplicit true

/-- The ids that the script writes: a letter or digit first, a number at the end. -/
def fixedId (first last : Fin 16) : Uuid :=
  let z : Quad := ⟨0, 0, 0, 0⟩
  ⟨⟨first, 0, 0, 0⟩, z, z, ⟨4, 0, 0, 0⟩, ⟨8, 0, 0, 0⟩, z, z, ⟨0, 0, 0, last⟩⟩

def demoTableId : Uuid := fixedId 0 1

def restaurantId : Uuid := fixedId 10 1

def table2Id : Uuid := fixedId 0 2

def table3Id : Uuid := fixedId 0 3

example : demoTableId.text = "00000000-0000-4000-8000-000000000001" := by decide +kernel

example : restaurantId.text = "a0000000-0000-4000-8000-000000000001" := by decide +kernel

structure SeedUser where
  name : String
  email : String
  role : UserRole
  deriving DecidableEq, Repr

/-- The role with a capital letter. -/
def roleName (role : UserRole) : String :=
  match role.text.toList with
  | [] => ""
  | c :: cs => String.ofList (c.toUpper :: cs)

def roles : List UserRole := [.customer, .waiter, .kitchen, .manager, .admin]

def numberedUser (role : UserRole) (i : Nat) : SeedUser :=
  ⟨roleName role ++ " " ++ toString i, role.text ++ toString i ++ "@example.com", role⟩

def specialUsers : List SeedUser :=
  [ ⟨"Test User", "test@example.com", .customer⟩,
    ⟨"Demo Manager", "manager@example.com", .manager⟩,
    ⟨"Demo Waiter", "waiter@example.com", .waiter⟩,
    ⟨"Demo Kitchen", "kitchen@example.com", .kitchen⟩ ]

/-- Thirteen users of each role, and the special ones. -/
def seedUsers : List SeedUser :=
  (roles.flatMap fun role => (List.range' 1 13).map (numberedUser role)) ++ specialUsers

/-- A dish of the demo menu; the price is in hundredths. -/
structure SeedItem where
  name : String
  description : String
  price : Int
  prepTime : Int
  imageUrl : String
  deriving DecidableEq, Repr

structure SeedCategory where
  name : String
  nameAm : String
  displayOrder : Int
  description : String
  descriptionAm : String
  items : List SeedItem
  deriving DecidableEq, Repr

def breakfastItems : List SeedItem :=
  [ ⟨"Avocado Toast",
      "Sourdough, smashed avocado, poached egg, chilli flakes & micro herbs", 1200, 15,
      "https://images.unsplash.com/photo-1525351484163-7529414344d8?w=480&h=320&fit=crop&q=80"⟩,
    ⟨"Classic Eggs Benedict",
      "Canadian bacon, silky hollandaise on a toasted English muffin", 1450, 20,
      "https://images.unsplash.com/photo-1608039755401-742074f0548d?w=480&h=320&fit=crop&q=80"⟩,
    ⟨"Buttermilk Pancakes",
      "Stack of three, maple syrup, wild berry compote & whipped butter", 1100, 15,
      "https://images.unsplash.com/photo-1567620905732-2d1ec7ab7445?w=480&h=320&fit=crop&q=80"⟩,
    ⟨"Full English Breakfast",
      "Bacon, sausage, fried egg, baked beans, toast & grilled tomato", 1600, 25,
      "https://images.unsplash.com/photo-1533089860892-a7c6f0a88666?w=480&h=320&fit=crop&q=80"⟩,
    ⟨"Granola & Yogurt Parfait",
      "Greek yogurt, house-made granola, seasonal fruit & honey drizzle", 950, 8,
      "https://images.unsplash.com/photo-1488477181946-6428a0291777?w=480&h=320&fit=crop&q=80"⟩,
    ⟨"French Toast",
      "Brioche, vanilla custard, cinnamon sugar, fresh strawberries & cream", 1300, 18,
      "https://images.unsplash.com/photo-1484723091739-30a097e8f929?w=480&h=320&fit=crop&q=80"⟩,
    ⟨"Smoked Salmon Bagel",
      "Cream cheese, capers, red onion, dill on toasted sesame bagel", 1550, 12,
      "https://images.unsplash.com/photo-1551504734-5ee1c4a1479b?w=480&h=320&fit=crop&q=80"⟩,
    ⟨"Açaí Power Bowl",
      "Açaí blend, banana, granola, coconut flakes, chia seeds & agave", 1350, 10,
      "https://images.unsplash.com/photo-1590301157890-4810ed352733?w=480&h=320&fit=crop&q=80"⟩ ]

def lunchItems : List SeedItem :=
  [ ⟨"Grilled Chicken Caesar",
      "Romaine, parmesan shards, croutons, house Caesar dressing", 1500, 15,
      "https://images.unsplash.com/photo-1512621776951-a57141f2eefd?w=480&h=320&fit=crop&q=80"⟩,
    ⟨"Smash Burger",
      "Double smash patty, American cheese, pickles, secret sauce, brioche bun", 1650, 20,
      "https://images.unsplash.com/photo-1568901346375-23c9450c58cd?w=480&h=320&fit=crop&q=80"⟩,
    ⟨"Margherita Flatbread",
      "San Marzano tomato, buffalo mozzarella, fresh basil, extra virgin olive oil", 1300, 18,
      "https://images.unsplash.com/photo-1571407970349-bc81e7e96d47?w=480&h=320&fit=crop&q=80"⟩,
    ⟨"Falafel Wrap",
      "Crispy falafel, hummus, pickled cabbage, tahini & fresh veggies", 1250, 15,
      "https://images.unsplash.com/photo-1555126634-323283e090fa?w=480&h=320&fit=crop&q=80"⟩,
    ⟨"Spicy Tuna Tartare",
      "Sushi-grade tuna, sriracha mayo, cucumber, sesame, wonton chips", 1800, 15,
      "https://images.unsplash.com/photo-1534482421-64566f976cfa?w=480&h=320&fit=crop&q=80"⟩,
    ⟨"Caprese Salad",
      "Heritage tomatoes, burrata, basil oil, aged balsamic, flaky sea salt", 1400, 10,
      "https://images.unsplash.com/photo-1490645935967-10de6ba17061?w=480&h=320&fit=crop&q=80"⟩,
    ⟨"Street Beef Tacos",
      "Slow-braised beef, pico de gallo, guacamole, coriander & lime (×3)", 1450, 20,
      "https://images.unsplash.com/photo-1565299585323-38d6b0865b47?w=480&h=320&fit=crop&q=80"⟩,
    ⟨"Tom Yum Noodle Soup",
      "Tiger prawn, lemongrass, galangal, kaffir lime, rice noodles, Thai chilli", 1350, 20,
      "https://images.unsplash.com/photo-1547592166-23ac45744acd?w=480&h=320&fit=crop&q=80"⟩ ]

def dinnerItems : List SeedItem :=
  [ ⟨"Pan-Seared Salmon",
      "Lemon beurre blanc, charred asparagus, crushed herb potatoes", 2800, 25,
      "https://images.unsplash.com/photo-1519708227418-c8fd9a32b7a2?w=480&h=320&fit=crop&q=80"⟩,
    ⟨"8oz Ribeye Steak",
      "Grass-fed beef, house chimichurri, truffle fries, seasonal greens", 3800, 30,
      "https://images.unsplash.com/photo-1544025162-d76694265947?w=480&h=320&fit=crop&q=80"⟩,
    ⟨"Truffle Mushroom Risotto",
      "Arborio rice, wild mushrooms, white truffle oil, aged parmesan", 2400, 22,
      "https://images.unsplash.com/photo-1476124369491-e7addf5db371?w=480&h=320&fit=crop&q=80"⟩,
    ⟨"Rack of Lamb",
      "French-trimmed, rosemary jus, dauphinoise potatoes, minted peas", 4200, 35,
      "https://images.unsplash.com/photo-1558030006-450675393462?w=480&h=320&fit=crop&q=80"⟩,
    ⟨"Pasta Carbonara",
      "Fresh tagliatelle, guanciale, pecorino romano, egg yolk, cracked pepper", 1900, 20,
      "https://images.unsplash.com/photo-1612874742237-6526221588e3?w=480&h=320&fit=crop&q=80"⟩,
    ⟨"Grilled Sea Bass",
      "Whole sea bass, salsa verde, fennel slaw, lemon butter sauce", 3200, 28,
      "https://images.unsplash.com/photo-1467003909585-2f8a72700288?w=480&h=320&fit=crop&q=80"⟩,
    ⟨"Duck Leg Confit",
      "Slow-cooked duck, cherry gastrique, celeriac purée, crispy kale", 3400, 30,
      "https://images.unsplash.com/photo-1504674900247-0877df9cc836?w=480&h=320&fit=crop&q=80"⟩,
    ⟨"Spicy Tiger Prawns",
      "Garlic chilli butter, crusty sourdough, pickled cucumber, lemon", 2600, 20,
      "https://images.unsplash.com/photo-1599084993091-1cb5c0721cc6?w=480&h=320&fit=crop&q=80"⟩ ]

def drinksItems : List SeedItem :=
  [ ⟨"Fresh Orange Juice",
      "Cold-pressed navel oranges, no added sugar, served chilled", 500, 5,
      "https://images.unsplash.com/photo-1600271886742-f049cd451bba?w=480&h=320&fit=crop&q=80"⟩,
    ⟨"Specialty Iced Coffee",
      "Double espresso, oat milk, vanilla syrup, served over crystal ice", 650, 7,
      "https://images.unsplash.com/photo-1544145945-f90425340c7e?w=480&h=320&fit=crop&q=80"⟩,
    ⟨"Watermelon Lemonade",
      "Fresh watermelon, house lemonade, muddled mint, pink salt rim", 600, 8,
      "https://images.unsplash.com/photo-1621263764928-df1444c5e859?w=480&h=320&fit=crop&q=80"⟩,
    ⟨"Classic Mojito",
      "White rum, fresh lime, cane sugar, soda water, fresh mint", 1000, 10,
      "https://images.unsplash.com/photo-1551538827-9c037cb4f32a?w=480&h=320&fit=crop&q=80"⟩,
    ⟨"Mango Smoothie",
      "Alphonso mango, coconut water, lime juice, turmeric & chia seeds", 700, 8,
      "https://images.unsplash.com/photo-1546548970-71785318a17b?w=480&h=320&fit=crop&q=80"⟩,
    ⟨"Flat White",
      "Ristretto double shot, velvety steamed whole milk, latte art", 550, 6,
      "https://images.unsplash.com/photo-1534687941688-651ccaafbff8?w=480&h=320&fit=crop&q=80"⟩,
    ⟨"Matcha Latte",
      "Ceremonial grade matcha, oat milk, honey — served hot or iced", 650, 7,
      "https://images.unsplash.com/photo-1545038900-5d74e33f7a4e?w=480&h=320&fit=crop&q=80"⟩,
    ⟨"Passion Fruit Spritz",
      "Prosecco, passion fruit purée, elderflower, sparkling water", 1100, 10,
      "https://images.unsplash.com/photo-1560762484-813fc97650a0?w=480&h=320&fit=crop&q=80"⟩,
    ⟨"Ethiopian Espresso",
      "Single-origin Yirgacheffe beans, notes of jasmine and citrus", 450, 4,
      "https://images.unsplash.com/photo-1510591509098-f4fdc6d0ff04?w=480&h=320&fit=crop&q=80"⟩,
    ⟨"Hibiscus Iced Tea",
      "Cold-brewed hibiscus flowers, touch of honey and fresh mint", 550, 5,
      "https://images.unsplash.com/photo-1553530666-ba11a7da3888?w=480&h=320&fit=crop&q=80"⟩,
    ⟨"Sparkling Mineral Water",
      "Natural carbonation, served with a slice of lime", 400, 2,
      "https://images.unsplash.com/photo-1548967036-d1593ef30864?w=480&h=320&fit=crop&q=80"⟩,
    ⟨"Craft Beer (Lager)",
      "Local microbrewery lager, crisp and refreshing", 800, 5,
      "https://images.unsplash.com/photo-1535958636474-b021ee887b13?w=480&h=320&fit=crop&q=80"⟩,
    ⟨"Red Wine (Cabernet)",
      "Full-bodied red with notes of black cherry and oak", 1200, 5,
      "https://images.unsplash.com/photo-1510812431401-41d2bd2722f3?w=480&h=320&fit=crop&q=80"⟩ ]

def seedCategories : List SeedCategory :=
  [ ⟨"Breakfast", "ቁርስ", 1, "Morning favourites to start your day right",
      "ለቀኑ ጥሩ ጅምር የሚሆኑ የጠዋት ምርጫዎች", breakfastItems⟩,
    ⟨"Lunch", "ምሳ", 2, "Hearty midday meals and light bites",
      "አጥጋቢ የቀትር ምግቦች እና ቀለል ያሉ መክሰሶች", lunchItems⟩,
    ⟨"Dinner", "እራት", 3, "Elevated evening dishes crafted with care",
      "በጥንቃቄ የተዘጋጁ የምሽት ምግቦች", dinnerItems⟩,
    ⟨"Drinks", "መጠጦች", 4, "Refreshing beverages, cocktails, and more",
      "የሚያድሱ መጠጦች፣ ኮክቴሎች እና ሌሎችም", drinksItems⟩ ]

theorem storable_append (h : Storable s) (h' : Storable t) : Storable (s ++ t) := by
  intro hmem
  rw [String.toList_append] at hmem
  exact (List.mem_append.1 hmem).elim h h'

theorem storable_ofList {cs : List Char} (h : '\x00' ∉ cs) : Storable (String.ofList cs) := by
  rwa [Storable, String.toList_ofList]

theorem seedUsers_fit :
    ∀ u ∈ seedUsers, IsVarchar 256 u.name ∧ IsVarchar 256 u.email := by
  have hdigits : ∀ i ∈ List.range' 1 13, IsVarchar 2 (toString i) := by decide +kernel
  have hrole : ∀ role ∈ roles, IsVarchar 10 role.text ∧ IsVarchar 10 (roleName role) := by
    decide +kernel
  have hspecial : ∀ u ∈ specialUsers, IsVarchar 256 u.name ∧ IsVarchar 256 u.email := by
    decide +kernel
  have hdomain : IsVarchar 12 "@example.com" := by decide +kernel
  have hspace : IsVarchar 1 " " := by decide +kernel
  intro u hu
  rcases List.mem_append.1 hu with hu | hu
  · obtain ⟨role, hr, hu⟩ := List.mem_flatMap.1 hu
    obtain ⟨i, hi, rfl⟩ := List.mem_map.1 hu
    obtain ⟨⟨htext, htext'⟩, hname, hname'⟩ := hrole role hr
    obtain ⟨hdigit, hdigit'⟩ := hdigits i hi
    refine ⟨⟨storable_append (storable_append hname hspace.1) hdigit, ?_⟩,
      ⟨storable_append (storable_append htext hdigit) hdomain.1, ?_⟩⟩
    · have hlength := hspace.2
      simp only [numberedUser, String.length_append]
      omega
    · have hlength := hdomain.2
      simp only [numberedUser, String.length_append]
      omega
  · exact hspecial u hu

/-- The columns of a dish take what the script enters. -/
def SeedItem.Fits (i : SeedItem) : Prop :=
  IsVarchar 256 i.name ∧ FitsNumeric i.price ∧ FitsInt4 i.prepTime ∧ Storable i.description ∧
    Storable i.imageUrl

-- The characters of a literal are at hand, but reading them back from its bytes takes long.
theorem SeedItem.fits_of_chars {name description imageUrl : List Char} {price prepTime : Int}
    (h : '\x00' ∉ name ++ description ++ imageUrl ∧ name.length ≤ 256 ∧ FitsNumeric price ∧
      FitsInt4 prepTime) :
    SeedItem.Fits ⟨String.ofList name, String.ofList description, price, prepTime,
      String.ofList imageUrl⟩ := by
  obtain ⟨hnull, hlength, hprice, hprep⟩ := h
  simp only [List.mem_append, not_or] at hnull
  refine ⟨⟨storable_ofList hnull.1.1, ?_⟩, hprice, hprep, storable_ofList hnull.1.2,
    storable_ofList hnull.2⟩
  rwa [String.length_ofList]

theorem breakfastItems_fit : ∀ i ∈ breakfastItems, i.Fits := by
  repeat refine List.forall_mem_cons.2 ⟨SeedItem.fits_of_chars (by decide +kernel), ?_⟩
  exact List.forall_mem_nil _

theorem lunchItems_fit : ∀ i ∈ lunchItems, i.Fits := by
  repeat refine List.forall_mem_cons.2 ⟨SeedItem.fits_of_chars (by decide +kernel), ?_⟩
  exact List.forall_mem_nil _

theorem dinnerItems_fit : ∀ i ∈ dinnerItems, i.Fits := by
  repeat refine List.forall_mem_cons.2 ⟨SeedItem.fits_of_chars (by decide +kernel), ?_⟩
  exact List.forall_mem_nil _

theorem drinksItems_fit : ∀ i ∈ drinksItems, i.Fits := by
  repeat refine List.forall_mem_cons.2 ⟨SeedItem.fits_of_chars (by decide +kernel), ?_⟩
  exact List.forall_mem_nil _

theorem seedCategories_fit : ∀ c ∈ seedCategories,
    IsVarchar 256 c.name ∧ IsVarchar 256 c.nameAm ∧ FitsInt4 c.displayOrder ∧
      ∀ i ∈ c.items, i.Fits := by
  have hitems : ∀ c ∈ seedCategories, ∀ i ∈ c.items, i.Fits :=
    List.forall_mem_cons.2 ⟨breakfastItems_fit, List.forall_mem_cons.2 ⟨lunchItems_fit,
      List.forall_mem_cons.2 ⟨dinnerItems_fit, List.forall_mem_singleton.2 drinksItems_fit⟩⟩⟩
  have hcategories : ∀ c ∈ seedCategories,
      IsVarchar 256 c.name ∧ IsVarchar 256 c.nameAm ∧ FitsInt4 c.displayOrder := by
    decide +kernel
  intro c hc
  obtain ⟨hname, hnameAm, horder⟩ := hcategories c hc
  exact ⟨hname, hnameAm, horder, hitems c hc⟩

end DineFlow.Seed
