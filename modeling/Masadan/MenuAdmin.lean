import Masadan.DeskOrders
import Masadan.Menu

/-!
# Editing the menu

The admin's routes over categories and dishes: `src/app/api/admin/categories` and
`src/app/api/admin/items`. They are programs over the menu's tables, and each call is
answered from what the others have left; a foreign key that names no row is refused,
and so is the deletion of a category that dishes refer to.
-/

namespace Masadan

/-! ## The calls -/

/-- **The calls of the menu's routes.** -/
inductive MenuCall : Type 1 where
  /-- Any read. -/
  | query {β : Type} (q : MenuDb → β)
  | categoryCreate (row : Category)
  | categoryUpdate (id : Id) (data : Category → Category)
  | categoryDelete (id : Id)
  | menuItemCreate (row : Dish) (groups : List GroupInput)
  | menuItemUpdate (id : Id) (data : Dish → Dish)
  | menuItemDelete (id : Id)
  /-- The transaction of an item's `PATCH`: its groups anew, and its columns. -/
  | menuItemTransaction (id : Id) (data : Dish → Dish) (groups : List GroupInput)
  /-- `menu.changed`. -/
  | publish (venueId : Id)

abbrev MenuCall.Res : MenuCall → Type
  | .query (β := β) _ => β
  | .categoryCreate _ => Id
  | .categoryUpdate _ _ => Unit
  | .categoryDelete _ => Unit
  | .menuItemCreate _ _ => Id
  | .menuItemUpdate _ _ => Unit
  | .menuItemDelete _ => Unit
  | .menuItemTransaction .. => Unit
  | .publish _ => Unit

abbrev menuApi : Sig where
  Op := MenuCall
  Res := MenuCall.Res
  Err := DbError

abbrev MenuApi (α : Type) := Prog menuApi α

namespace MenuDb

/-- Insert a group of a dish, and its options. -/
def insertGroup (w : MenuDb) (itemId : Id) (g : GroupInput) (sortOrder : ℕ) : MenuDb :=
  { w with
    modifierGroups := w.modifierGroups.create
      { itemId := itemId, nameTr := g.nameTr,
        nameEn := if g.nameEn = [] then g.nameTr else g.nameEn,
        minSelect := g.minSelect, maxSelect := g.maxSelect, sortOrder := sortOrder }
    modifierOptions := w.modifierOptions.createAll (g.options.mapIdx (fun oi o =>
      { groupId := w.modifierGroups.next, nameTr := o.nameTr,
        nameEn := if o.nameEn = [] then o.nameTr else o.nameEn,
        priceDeltaKurus := o.priceDeltaKurus, sortOrder := oi })) }

/-- Insert the groups of a dish, from a position on. -/
def insertGroups (w : MenuDb) (itemId : Id) : List GroupInput → ℕ → MenuDb
  | [], _ => w
  | g :: gs, sortOrder => (w.insertGroup itemId g sortOrder).insertGroups itemId gs (sortOrder + 1)

/-- Delete the groups of a dish; their options go with them (`ON DELETE CASCADE`). -/
def deleteGroups (w : MenuDb) (itemId : Id) : MenuDb :=
  { w with
    modifierGroups := w.modifierGroups.erase (fun _ g => g.itemId == itemId)
    modifierOptions := w.modifierOptions.erase (fun _ o =>
      (w.modifierGroups.get? o.groupId).any (fun g => g.itemId == itemId)) }

def categoryCreate (w : MenuDb) (row : Category) : MenuDb × Except DbError Id :=
  if (w.venues.get? row.venueId).isNone then (w, .error .p2003)
  else ({ w with categories := w.categories.create row }, .ok w.categories.next)

def categoryUpdate (w : MenuDb) (id : Id) (data : Category → Category) :
    MenuDb × Except DbError Unit :=
  match w.categories.get? id with
  | none => (w, .error .p2025)
  | some _ => ({ w with categories := w.categories.updateAt id data }, .ok ())

/-- A category that dishes refer to stays (`ON DELETE RESTRICT`). -/
def categoryDelete (w : MenuDb) (id : Id) : MenuDb × Except DbError Unit :=
  match w.categories.get? id with
  | none => (w, .error .p2025)
  | some _ =>
    if w.menuItems.count (fun _ d => d.categoryId == id) > 0 then (w, .error .p2003)
    else ({ w with categories := w.categories.erase (fun k _ => k == id) }, .ok ())

/-- Insert a dish with its groups; its venue and its category must be there. -/
def menuItemCreate (w : MenuDb) (row : Dish) (groups : List GroupInput) :
    MenuDb × Except DbError Id :=
  if (w.venues.get? row.venueId).isNone || (w.categories.get? row.categoryId).isNone then
    (w, .error .p2003)
  else (({ w with menuItems := w.menuItems.create row } : MenuDb).insertGroups w.menuItems.next
    groups 0, .ok w.menuItems.next)

def menuItemUpdate (w : MenuDb) (id : Id) (data : Dish → Dish) : MenuDb × Except DbError Unit :=
  match w.menuItems.get? id with
  | none => (w, .error .p2025)
  | some _ => ({ w with menuItems := w.menuItems.updateAt id data }, .ok ())

/-- Delete a dish, and its groups with it; lines of orders that referred to it refer to
none (`ON DELETE SET NULL`). -/
def menuItemDelete (w : MenuDb) (id : Id) : MenuDb × Except DbError Unit :=
  match w.menuItems.get? id with
  | none => (w, .error .p2025)
  | some _ =>
    ({ w.deleteGroups id with
      menuItems := w.menuItems.erase (fun k _ => k == id)
      ordered := w.ordered.filter (fun k => k != id) }, .ok ())

/-- Delete the dish's groups, write its columns and insert the new groups; all of it or
nothing. -/
def menuItemTransaction (w : MenuDb) (id : Id) (data : Dish → Dish) (groups : List GroupInput) :
    MenuDb × Except DbError Unit :=
  match w.menuItems.get? id with
  | none => (w, .error .p2025)
  | some d =>
    if (w.categories.get? (data d).categoryId).isNone then (w, .error .p2003)
    else (({ w.deleteGroups id with menuItems := w.menuItems.updateAt id data } : MenuDb).insertGroups
      id groups 0, .ok ())

/-- **What each call does.** -/
def exec : (op : MenuCall) → MenuDb → MenuDb × Except DbError (MenuCall.Res op)
  | .query q, w => (w, .ok (q w))
  | .categoryCreate row, w => w.categoryCreate row
  | .categoryUpdate id data, w => w.categoryUpdate id data
  | .categoryDelete id, w => w.categoryDelete id
  | .menuItemCreate row groups, w => w.menuItemCreate row groups
  | .menuItemUpdate id data, w => w.menuItemUpdate id data
  | .menuItemDelete id, w => w.menuItemDelete id
  | .menuItemTransaction id data groups, w => w.menuItemTransaction id data groups
  | .publish venueId, w => ({ w with changed := w.changed ++ [venueId] }, .ok ())

end MenuDb

def menuQuery {β : Type} (q : MenuDb → β) : MenuApi β := Prog.perform (S := menuApi) (.query q)

def menuPerform (op : MenuCall) : MenuApi (MenuCall.Res op) := Prog.perform (S := menuApi) op

/-! ## The routes -/

inductive MenuAnswer where
  | ok
  | created (id : Id)
  | deleted (softDeleted : Bool)
  | unauthorized
  | not_found
  | invalid
  | bad_category
  | name_required
  | category_not_empty
  deriving DecidableEq, Repr

/-- The HTTP status of an answer. -/
def MenuAnswer.status : MenuAnswer → ℕ
  | .ok | .created _ | .deleted _ => 200
  | .unauthorized => 401
  | .not_found => 404
  | .invalid | .bad_category | .name_required => 400
  | .category_not_empty => 409

/-- The body of `POST /api/admin/categories`; a name that is falsy is none. -/
structure CategoryBody where
  nameTr : Option Text
  nameEn : Option Text
  sortOrder : Option ℤ

/-- `POST /api/admin/categories`. -/
def postCategory (staff : Option StaffClaims) (body : CategoryBody) : MenuApi MenuAnswer := do
  match staff with
  | none => return .unauthorized
  | some staff =>
    match body.nameTr with
    | none => return .name_required
    | some nameTr =>
      let id : Id ← menuPerform (.categoryCreate
        ⟨staff.venueId, nameTr, body.nameEn.getD nameTr, body.sortOrder.getD 0, true⟩)
      let _ ← menuPerform (.publish staff.venueId)
      return .created id

/-- The body of `PATCH /api/admin/categories/[id]`. -/
structure CategoryPatch where
  nameTr : Option Text
  nameEn : Option Text
  sortOrder : Option ℤ
  active : Option Bool

def CategoryPatch.data (body : CategoryPatch) (c : Category) : Category :=
  { c with
    nameTr := body.nameTr.getD c.nameTr
    nameEn := body.nameEn.getD c.nameEn
    sortOrder := body.sortOrder.getD c.sortOrder
    active := body.active.getD c.active }

/-- `findFirst({ where: { id, venueId } })` of a category. -/
def MenuDb.categoryOf (w : MenuDb) (id venueId : Id) : Option Category :=
  (w.categories.get? id).filter (fun c => c.venueId == venueId)

/-- `findFirst({ where: { id, venueId } })` of a dish. -/
def MenuDb.dishOf (w : MenuDb) (id venueId : Id) : Option Dish :=
  (w.menuItems.get? id).filter (fun d => d.venueId == venueId)

/-- `PATCH /api/admin/categories/[id]`. -/
def patchCategory (staff : Option StaffClaims) (id : Id) (body : CategoryPatch) :
    MenuApi MenuAnswer := do
  match staff with
  | none => return .unauthorized
  | some staff =>
    let existing ← menuQuery (fun w => w.categoryOf id staff.venueId)
    match existing with
    | none => return .not_found
    | some _ =>
      let _ ← menuPerform (.categoryUpdate id body.data)
      let _ ← menuPerform (.publish staff.venueId)
      return .ok

/-- `DELETE /api/admin/categories/[id]`. The dishes are read with the category, of
whichever venue they are. -/
def deleteCategory (staff : Option StaffClaims) (id : Id) : MenuApi MenuAnswer := do
  match staff with
  | none => return .unauthorized
  | some staff =>
    let existing ← menuQuery (fun w => (w.categoryOf id staff.venueId).map
      (fun _ => w.menuItems.count (fun _ d => d.categoryId == id)))
    match existing with
    | none => return .not_found
    | some items =>
      if items > 0 then return .category_not_empty
      else
        let _ ← menuPerform (.categoryDelete id)
        let _ ← menuPerform (.publish staff.venueId)
        return .ok

/-- The row of a new dish. -/
def ItemInput.row (d : ItemInput) (venueId : Id) : Dish where
  venueId := venueId
  categoryId := d.categoryId
  nameTr := d.nameTr
  nameEn := if d.nameEn = [] then d.nameTr else d.nameEn
  descTr := d.descTr
  descEn := d.descEn
  priceKurus := d.priceKurus
  photoUrl := d.photoUrl
  tags := d.tags
  available := d.available
  sortOrder := d.sortOrder

/-- `POST /api/admin/items`. -/
def postItem (staff : Option StaffClaims) (body : Option RawItem) : MenuApi MenuAnswer := do
  match staff with
  | none => return .unauthorized
  | some staff =>
    match body.bind itemSchema with
    | none => return .invalid
    | some d =>
      let category ← menuQuery (fun w => w.categoryOf d.categoryId staff.venueId)
      match category with
      | none => return .bad_category
      | some _ =>
        let id : Id ← menuPerform (.menuItemCreate (d.row staff.venueId) d.modifierGroups)
        let _ ← menuPerform (.publish staff.venueId)
        return .created id

/-- The body of `PATCH /api/admin/items/[id]`: the 86 toggle alone, or anything else. -/
inductive ItemPatch where
  | available (available : Bool)
  | other (body : Option RawItem)

/-- What the `PATCH` writes into the row of a dish. -/
def ItemInput.data (d : ItemInput) (dish : Dish) : Dish := d.row dish.venueId

/-- `PATCH /api/admin/items/[id]`. -/
def patchItem (staff : Option StaffClaims) (id : Id) (body : ItemPatch) : MenuApi MenuAnswer := do
  match staff with
  | none => return .unauthorized
  | some staff =>
    let existing ← menuQuery (fun w => w.dishOf id staff.venueId)
    match existing with
    | none => return .not_found
    | some _ =>
      match body with
      | .available available =>
        let _ ← menuPerform (.menuItemUpdate id (fun d => { d with available := available }))
        let _ ← menuPerform (.publish staff.venueId)
        return .ok
      | .other body =>
        match body.bind itemSchema with
        | none => return .invalid
        | some d =>
          let _ ← menuPerform (.menuItemTransaction id d.data d.modifierGroups)
          let _ ← menuPerform (.publish staff.venueId)
          return .ok

/-- `DELETE /api/admin/items/[id]`: a dish that orders refer to is hidden instead. -/
def deleteItem (staff : Option StaffClaims) (id : Id) : MenuApi MenuAnswer := do
  match staff with
  | none => return .unauthorized
  | some staff =>
    let existing ← menuQuery (fun w => w.dishOf id staff.venueId)
    match existing with
    | none => return .not_found
    | some _ =>
      let referenced ← menuQuery (fun w => w.ordered.count id)
      if referenced > 0 then
        let _ ← menuPerform (.menuItemUpdate id (fun d => { d with available := false }))
        let _ ← menuPerform (.publish staff.venueId)
        return .deleted true
      else
        let _ ← menuPerform (.menuItemDelete id)
        let _ ← menuPerform (.publish staff.venueId)
        return .deleted false

/-! ## The server -/

/-- The requests of the admins of all venues. -/
inductive MenuRequest where
  | postCategory (staff : Option StaffClaims) (body : CategoryBody)
  | patchCategory (staff : Option StaffClaims) (id : Id) (body : CategoryPatch)
  | deleteCategory (staff : Option StaffClaims) (id : Id)
  | postItem (staff : Option StaffClaims) (body : Option RawItem)
  | patchItem (staff : Option StaffClaims) (id : Id) (body : ItemPatch)
  | deleteItem (staff : Option StaffClaims) (id : Id)

/-- Who is asking. -/
def MenuRequest.staff : MenuRequest → Option StaffClaims
  | .postCategory staff _ | .patchCategory staff _ _ | .deleteCategory staff _
  | .postItem staff _ | .patchItem staff _ _ | .deleteItem staff _ => staff

def MenuRequest.prog : MenuRequest → MenuApi MenuAnswer
  | .postCategory staff body => Masadan.postCategory staff body
  | .patchCategory staff id body => Masadan.patchCategory staff id body
  | .deleteCategory staff id => Masadan.deleteCategory staff id
  | .postItem staff body => Masadan.postItem staff body
  | .patchItem staff id body => Masadan.patchItem staff id body
  | .deleteItem staff id => Masadan.deleteItem staff id

/-- **The menu's routes**, while customers order dishes. -/
abbrev menuServer : Sys menuApi where
  World := MenuDb
  Req := MenuRequest
  Ans := MenuAnswer
  Choice := Unit
  Env := List Id
  exec _ op w := w.exec op
  prog := MenuRequest.prog
  external _ := true
  spawns _ := []
  env itemIds w := { w with ordered := w.ordered ++ itemIds }
  kills _ := false

/-- A run of these requests, from a world. -/
abbrev menuRun (w₀ : MenuDb) (acts : List menuServer.Action) : menuServer.Pool :=
  Sys.Pool.run (Sys.Pool.init w₀ : menuServer.Pool) acts

end Masadan
