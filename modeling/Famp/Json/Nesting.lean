import Famp.Json.Value

/-!
# Nesting of JSON trees

An array or an object is one level deeper than its deepest part.  A parser with a
recursion limit refuses documents that are too deep, while a printer writes them.
-/

set_option autoImplicit false

namespace Famp.Json

namespace Tree

mutual
def depth : Tree → Nat
  | .arr items => itemsDepth items + 1
  | .obj fields => fieldsDepth fields + 1
  | _ => 0

def itemsDepth : List Tree → Nat
  | [] => 0
  | item :: rest => max item.depth (itemsDepth rest)

def fieldsDepth : List (String × Tree) → Nat
  | [] => 0
  | (_, item) :: rest => max item.depth (fieldsDepth rest)
end

theorem fieldsDepth_le_iff {limit : Nat} {fields : List (String × Tree)} :
    fieldsDepth fields ≤ limit ↔ ∀ field ∈ fields, field.2.depth ≤ limit := by
  induction fields with
  | nil => simp [fieldsDepth]
  | cons field rest ih => simp only [fieldsDepth, Nat.max_le, ih, List.forall_mem_cons]

theorem fieldsDepth_insertField_le (key : String) (item : Tree) (fields : List (String × Tree)) :
    fieldsDepth (insertField key item fields) ≤ max item.depth (fieldsDepth fields) := by
  induction fields with
  | nil => simp [insertField, fieldsDepth]
  | cons field rest ih =>
    simp only [insertField]
    split
    · simp only [fieldsDepth]
      omega
    · split
      · simp only [fieldsDepth]
        omega
      · simp only [fieldsDepth]
        omega

mutual
theorem depth_normalize_le : ∀ tree : Tree, tree.normalize.depth ≤ tree.depth
  | .null | .bool _ | .num _ | .str _ => Nat.le_refl _
  | .arr items => Nat.succ_le_succ (itemsDepth_normalizeItems_le items)
  | .obj fields => by
    have inserted := fieldsDepth_normalizeFields_le fields []
    simp only [normalize, depth, fieldsDepth] at *
    omega

theorem itemsDepth_normalizeItems_le : ∀ items : List Tree,
    itemsDepth (normalizeItems items) ≤ itemsDepth items
  | [] => Nat.le_refl _
  | item :: rest => by
    have first := depth_normalize_le item
    have later := itemsDepth_normalizeItems_le rest
    simp only [normalizeItems, itemsDepth]
    omega

theorem fieldsDepth_normalizeFields_le : ∀ fields done : List (String × Tree),
    fieldsDepth (normalizeFields done fields) ≤ max (fieldsDepth done) (fieldsDepth fields)
  | [], _ => Nat.le_max_left _ _
  | (key, item) :: rest, done => by
    have first := depth_normalize_le item
    have inserted := fieldsDepth_insertField_le key item.normalize done
    have later := fieldsDepth_normalizeFields_le rest (insertField key item.normalize done)
    simp only [normalizeFields, fieldsDepth]
    omega
end

mutual
theorem depth_mapNumbers (change : Number → Number) : ∀ tree : Tree,
    (tree.mapNumbers change).depth = tree.depth
  | .null | .bool _ | .num _ | .str _ => rfl
  | .arr items => congrArg Nat.succ (itemsDepth_mapNumbersItems change items)
  | .obj fields => congrArg Nat.succ (fieldsDepth_mapNumbersFields change fields)

theorem itemsDepth_mapNumbersItems (change : Number → Number) : ∀ items : List Tree,
    itemsDepth (mapNumbersItems change items) = itemsDepth items
  | [] => rfl
  | item :: rest => by
    simp only [mapNumbersItems, itemsDepth, depth_mapNumbers change item,
      itemsDepth_mapNumbersItems change rest]

theorem fieldsDepth_mapNumbersFields (change : Number → Number) :
    ∀ fields : List (String × Tree), fieldsDepth (mapNumbersFields change fields) = fieldsDepth fields
  | [] => rfl
  | (key, item) :: rest => by
    simp only [mapNumbersFields, fieldsDepth, depth_mapNumbers change item,
      fieldsDepth_mapNumbersFields change rest]
end

theorem depth_remove_le (key : String) (tree : Tree) : (tree.remove key).depth ≤ tree.depth := by
  cases tree with
  | obj fields =>
    refine Nat.succ_le_succ (fieldsDepth_le_iff.mpr fun field kept => ?_)
    exact fieldsDepth_le_iff.mp (Nat.le_refl _) field (List.mem_of_mem_filter kept)
  | _ => exact Nat.le_refl _

end Tree

namespace Value

def depth (value : Value) : Nat := value.val.depth

theorem depth_mapNumbers (change : Number → Number) (value : Value) :
    (value.mapNumbers change).depth = value.depth :=
  Tree.depth_mapNumbers change value.val

theorem depth_remove_le (value : Value) (key : String) : (value.remove key).depth ≤ value.depth :=
  Tree.depth_remove_le key value.val

end Value

end Famp.Json
