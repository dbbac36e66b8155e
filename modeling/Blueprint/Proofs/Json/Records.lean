import Blueprint.Json.Basic
import Mathlib.Data.List.Basic
import Mathlib.Data.List.Nodup

/-!
# What the JSON form of a record tells

A type is `Faithful` if different values of it have different JSON forms. A record is put together
from members under keys of its own, some of which are left out where there is nothing to write. As
its parts share no key, it can be seen of each member which part it belongs to, so records are equal
only part by part (`Settles.append`). The instances of `Settles` follow how records are built: the
members of a record, as they are written, settle all its components at once (`eq_of_obj_eq`).
-/

namespace Blueprint

/-- Different values have different JSON forms. -/
class Faithful (α : Type) [Encode α] : Prop where
  inj : ∀ {a b : α}, encode a = encode b → a = b

/-- Values that are written as they are spelled. -/
theorem Faithful.spelled {α : Type} {spelling : α → String}
    (h : ∀ a b, spelling a = spelling b → a = b) : @Faithful α ⟨fun a => .str (spelling a)⟩ :=
  @Faithful.mk α ⟨fun a => .str (spelling a)⟩ fun e => h _ _ (Json.str.inj e)

namespace Json

/-- Both lists of members keep to the keys, and they are equal only if the two values are. -/
class Settles (ms ns : List (String × Json)) (keys : outParam (List String))
    {β : outParam Type} (v w : outParam β) : Prop where
  left : ∀ m ∈ ms, m.1 ∈ keys
  right : ∀ m ∈ ns, m.1 ∈ keys
  eq : keys.Nodup → ms = ns → v = w

variable {α β γ : Type} {ms ms' ns ns' : List (String × Json)} {keys keys' : List String}
  {v w : β} {v' w' : γ}

/-! ## Parts -/

instance Settles.nil : Settles [] [] [] () () where
  left := by simp
  right := by simp
  eq _ _ := rfl

instance Settles.field [Encode α] [Faithful α] (key : String) (a b : α) :
    Settles (field key a) (field key b) [key] a b where
  left := by simp [Json.field]
  right := by simp [Json.field]
  eq _ h := Faithful.inj (congrArg Prod.snd (List.cons.inj h).1)

instance Settles.optional [Encode α] [Faithful α] (key : String) (a b : Option α) :
    Settles (optional key a) (optional key b) [key] a b where
  left := by cases a <;> simp [Json.optional]
  right := by cases b <;> simp [Json.optional]
  eq _ h := by
    cases a <;> cases b
    · rfl
    · cases h
    · cases h
    · exact congrArg some (Faithful.inj (congrArg Prod.snd (List.cons.inj h).1))

/-- Members that are written only if the list is not empty. -/
theorem Settles.of_isEmpty {a b : List β} {form : List β → Json}
    (hform : ∀ {a b}, form a = form b → a = b) (key : String) :
    Settles (if a.isEmpty then [] else [(key, form a)]) (if b.isEmpty then [] else [(key, form b)])
      [key] a b where
  left := by cases a <;> simp
  right := by cases b <;> simp
  eq _ h := by
    cases a <;> cases b
    · rfl
    · cases h
    · cases h
    · exact hform (congrArg Prod.snd (List.cons.inj h).1)

end Json

instance : Faithful Json := ⟨id⟩
instance : Faithful String := ⟨Json.str.inj⟩
instance : Faithful Nat := ⟨fun h => Int.ofNat.inj (Json.int.inj h)⟩
instance : Faithful Int := ⟨Json.int.inj⟩
instance : Faithful Bool := ⟨Json.bool.inj⟩

instance {α : Type} [Encode α] [Faithful α] : Faithful (List α) where
  inj h := List.map_injective_iff.2 (fun _ _ => Faithful.inj) (Json.arr.inj h)

namespace Json

variable {α β γ : Type} {ms ms' ns ns' : List (String × Json)} {keys keys' : List String}
  {v w : β} {v' w' : γ}

instance Settles.several [Encode α] [Faithful α] (key : String) (a b : List α) :
    Settles (several key a) (several key b) [key] a b :=
  .of_isEmpty Faithful.inj key

instance Settles.table (key : String) (a b : List (String × String)) :
    Settles (table key a) (table key b) [key] a b := by
  refine .of_isEmpty (fun h => List.map_injective_iff.2 ?_ (obj.inj h)) key
  rintro ⟨k, t⟩ ⟨k', t'⟩ e
  cases e
  rfl

/-! ## Parts together -/

/-- Of two parts with different keys, the first can be picked out. -/
theorem filter_keys_append (hd : (keys ++ keys').Nodup) (hms : ∀ m ∈ ms, m.1 ∈ keys)
    (hms' : ∀ m ∈ ms', m.1 ∈ keys') : (ms ++ ms').filter (·.1 ∈ keys) = ms := by
  have hdisjoint := (List.nodup_append'.1 hd).2.2
  rw [List.filter_append, List.filter_eq_self.2 (by simpa using hms), List.filter_eq_nil_iff.2]
  · exact List.append_nil ms
  · intro m hm
    simpa using fun hk => hdisjoint hk (hms' m hm)

/-- Parts with different keys are settled each by itself. -/
instance Settles.append [h : Settles ms ns keys v w] [h' : Settles ms' ns' keys' v' w'] :
    Settles (ms ++ ms') (ns ++ ns') (keys ++ keys') (v, v') (w, w') where
  left := by
    intro m hm
    exact List.mem_append.2 ((List.mem_append.1 hm).imp (h.left m) (h'.left m))
  right := by
    intro m hm
    exact List.mem_append.2 ((List.mem_append.1 hm).imp (h.right m) (h'.right m))
  eq hd e := by
    obtain ⟨hk, hk', -⟩ := List.nodup_append'.1 hd
    have hms := filter_keys_append hd h.left h'.left
    rw [e, filter_keys_append hd h.right h'.right] at hms
    subst hms
    rw [h.eq hk rfl, h'.eq hk' (List.append_cancel_left e)]

/-- What settles the parts settles what is made of them. -/
theorem Settles.imp (h : Settles ms ns keys v w) (himp : v = w → v' = w') :
    Settles ms ns keys v' w' :=
  ⟨h.left, h.right, fun hd e => himp (h.eq hd e)⟩

/-! ## Records -/

theorem eq_of_obj_eq [h : Settles ms ns keys v w] (e : obj ms = obj ns) (hd : keys.Nodup) :
    v = w :=
  h.eq hd (obj.inj e)

theorem tag_eq {mark tag tag' : String} (e : tagged mark tag ms = tagged mark tag' ns) :
    tag = tag' :=
  str.inj (congrArg Prod.snd (List.cons.inj (obj.inj e)).1)

theorem eq_of_tagged_eq [h : Settles ms ns keys v w] {mark tag : String}
    (e : tagged mark tag ms = tagged mark tag ns) (hd : keys.Nodup) : v = w :=
  h.eq hd (List.cons.inj (obj.inj e)).2

end Json

end Blueprint
