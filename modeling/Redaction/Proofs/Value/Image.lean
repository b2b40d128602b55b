import Mathlib.Data.List.Perm.Subperm
import Redaction.Value.Basic

/-!
# The image of a set

The elements of a set have the order and the equality of a key. Of the copies of its elements those
with one key fall together, and the set of the copies has one element for each key.
-/

namespace Redaction

variable {α : Type} {key : α → String}

/-- The elements that stand for a list: some of its own, with all its keys, in strict order. -/
structure ImageOf (key : α → String) (xs image : List α) : Prop where
  subset : ∀ y ∈ image, y ∈ xs
  exists_key : ∀ x ∈ xs, ∃ y ∈ image, key y = key x
  sorted : image.Pairwise fun x y => key x < key y

theorem mem_placeBy {x y : α} {xs : List α} (h : y ∈ placeBy key x xs) : y = x ∨ y ∈ xs := by
  induction xs with
  | nil => exact .inl (List.mem_singleton.mp h)
  | cons z rest ih =>
      rw [placeBy] at h
      split at h
      · exact List.mem_cons.mp h
      · split at h
        · rcases List.mem_cons.mp h with h | h
          · exact .inl h
          · exact .inr (List.mem_cons_of_mem z h)
        · rcases List.mem_cons.mp h with rfl | h
          · exact .inr List.mem_cons_self
          · exact (ih h).imp_right (List.mem_cons_of_mem z)

theorem self_mem_placeBy (x : α) (xs : List α) : x ∈ placeBy key x xs := by
  induction xs with
  | nil => exact List.mem_singleton_self x
  | cons z rest ih =>
      rw [placeBy]
      split
      · exact List.mem_cons_self
      · split
        · exact List.mem_cons_self
        · exact List.mem_cons_of_mem z ih

/-- The element that gives way to another has the same key. -/
theorem exists_key_placeBy {x y : α} {xs : List α} (h : y ∈ xs) :
    ∃ z ∈ placeBy key x xs, key z = key y := by
  induction xs with
  | nil => cases h
  | cons z rest ih =>
      rw [placeBy]
      split
      · exact ⟨y, List.mem_cons_of_mem x h, rfl⟩
      · split
        · next hkey =>
            rcases List.mem_cons.mp h with rfl | h
            · exact ⟨x, List.mem_cons_self, hkey⟩
            · exact ⟨y, List.mem_cons_of_mem x h, rfl⟩
        · rcases List.mem_cons.mp h with rfl | h
          · exact ⟨y, List.mem_cons_self, rfl⟩
          · obtain ⟨u, hu, hkey⟩ := ih h
            exact ⟨u, List.mem_cons_of_mem z hu, hkey⟩

theorem sorted_placeBy {x : α} {xs : List α} (h : xs.Pairwise fun x y => key x < key y) :
    (placeBy key x xs).Pairwise fun x y => key x < key y := by
  induction xs with
  | nil => exact List.pairwise_singleton _ x
  | cons z rest ih =>
      obtain ⟨hz, hrest⟩ := List.pairwise_cons.mp h
      rw [placeBy]
      split
      · next hlt =>
          refine List.pairwise_cons.mpr ⟨?_, h⟩
          intro y hy
          rcases List.mem_cons.mp hy with rfl | hy
          · exact hlt
          · exact String.lt_trans hlt (hz y hy)
      · split
        · next hkey => exact List.pairwise_cons.mpr ⟨fun y hy => hkey ▸ hz y hy, hrest⟩
        · next hlt hne =>
            have hgt : key z < key x := by
              rcases String.le_total (key x) (key z) with hle | hle
              · exact absurd (String.le_antisymm hle (String.not_lt.mp hlt)) hne
              · exact Std.lt_of_le_of_ne hle (Ne.symm hne)
            refine List.pairwise_cons.mpr ⟨?_, ih hrest⟩
            intro y hy
            rcases mem_placeBy hy with rfl | hy
            · exact hgt
            · exact hz y hy

/-- What the elements placed so far stand for, which is what each further element keeps. -/
theorem ImageOf.placeBy {xs image : List α} (h : ImageOf key xs image) (x : α) :
    ImageOf key (xs ++ [x]) (Redaction.placeBy key x image) := by
  refine ⟨?_, ?_, sorted_placeBy h.sorted⟩
  · intro y hy
    rcases mem_placeBy hy with rfl | hy
    · exact List.mem_append_right xs (List.mem_singleton_self y)
    · exact List.mem_append_left [x] (h.subset y hy)
  · intro y hy
    rcases List.mem_append.mp hy with hy | hy
    · obtain ⟨z, hz, hkey⟩ := h.exists_key y hy
      obtain ⟨u, hu, hkey'⟩ := exists_key_placeBy (x := x) hz
      exact ⟨u, hu, hkey'.trans hkey⟩
    · rw [List.mem_singleton.mp hy]
      exact ⟨x, self_mem_placeBy x image, rfl⟩

theorem imageOf_arrangeBy (key : α → String) (xs : List α) : ImageOf key xs (arrangeBy key xs) := by
  suffices h : ∀ done image, ImageOf key done image →
      ImageOf key (done ++ xs) (xs.foldl (fun image x => placeBy key x image) image) from
    h [] [] ⟨nofun, nofun, .nil⟩
  induction xs with
  | nil =>
      intro done image h
      rwa [List.append_nil]
  | cons x rest ih =>
      intro done image h
      have hrest := ih (done ++ [x]) _ (h.placeBy x)
      rwa [List.append_assoc] at hrest

theorem ImageOf.length_le {xs image : List α} (h : ImageOf key xs image) :
    image.length ≤ xs.length := by
  have hnodup : (image.map key).Nodup := by
    refine List.pairwise_map.mpr (h.sorted.imp fun hlt heq => ?_)
    rw [heq] at hlt
    exact absurd hlt (String.lt_irrefl _)
  have hsubset : image.map key ⊆ xs.map key := List.map_subset key h.subset
  have hle := (List.subperm_of_subset hnodup hsubset).length_le
  rwa [List.length_map, List.length_map] at hle

/-! ## Elements in order -/

theorem placeBy_of_forall_lt {x : α} {xs : List α} (h : ∀ y ∈ xs, key y < key x) :
    placeBy key x xs = xs ++ [x] := by
  induction xs with
  | nil => rfl
  | cons y rest ih =>
      obtain ⟨hy, hrest⟩ := List.forall_mem_cons.mp h
      have hge : ¬key x < key y := String.lt_asymm hy
      have hne : key x ≠ key y := fun heq => String.lt_irrefl (key y) (heq ▸ hy)
      rw [placeBy, if_neg hge, if_neg hne, ih hrest, List.cons_append]

theorem arrangeBy_of_sorted {xs : List α} (h : xs.Pairwise fun x y => key x < key y) :
    arrangeBy key xs = xs := by
  suffices hall : ∀ done, (done ++ xs).Pairwise (fun x y => key x < key y) →
      xs.foldl (fun image x => placeBy key x image) done = done ++ xs from hall [] h
  clear h
  induction xs with
  | nil =>
      intro done _
      exact (List.append_nil done).symm
  | cons x rest ih =>
      intro done hdone
      have hlast : ∀ y ∈ done, key y < key x := fun y hy =>
        (List.pairwise_append.mp hdone).2.2 y hy x List.mem_cons_self
      rw [List.foldl_cons, placeBy_of_forall_lt hlast, ih (done ++ [x]) (by simpa using hdone),
        List.append_assoc, List.singleton_append]

end Redaction
