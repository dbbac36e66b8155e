import Mathlib.Data.List.Basic
import Blueprint.Json.Render

/-!
# The text of a JSON value tells the value

No two values have the same text (`pretty_injective`). By itself a text may well begin like another
one: `1` begins like `12`. But whatever stands behind a value in the text of a larger one, if it is
anything, begins with a comma or ends the line (`Behind`). In front of that the text tells the value
and where it ends (`Tells`), and so, step by step, the text of a list tells its items.
-/

namespace Blueprint.Json

/-- What can stand behind a value: nothing, or what begins with a comma or a new line. -/
def Behind (r : List Char) : Prop := ∀ c ∈ r.head?, c = ',' ∨ c = '\n'

/-- In front of what can stand behind it, the text of the item tells the item and where it ends. -/
def Tells {α : Type} (text : α → String) (a : α) : Prop :=
  ∀ b r s, Behind r → Behind s → (text a).toList ++ r = (text b).toList ++ s → a = b ∧ r = s

theorem behind_nil : Behind [] := by simp [Behind]

theorem behind_comma (r : List Char) : Behind (',' :: r) := by simp [Behind]

theorem behind_newline (r : List Char) : Behind ('\n' :: r) := by simp [Behind]

variable {c d : Char} {r s : List Char} {level : Nat}

/-! ## Strings -/

/-- The characters that are not written as they are. -/
def escaped : List Char := '"' :: '\\' :: (List.range 32).map Char.ofNat

theorem escape_of_mem (h : c ∈ escaped) : ∃ rest, escape c = '\\' :: rest := by
  have hall : escaped.all (fun c => (escape c).head? = some '\\') = true := by decide +kernel
  have hhead := of_decide_eq_true (List.all_eq_true.1 hall c h)
  cases hc : escape c with
  | nil => rw [hc] at hhead; cases hhead
  | cons d rest =>
    rw [hc] at hhead
    exact ⟨rest, by rw [Option.some.inj hhead]⟩

theorem escape_of_not_mem (h : c ∉ escaped) : escape c = [c] := by
  obtain ⟨hquote, hbackslash, hrange⟩ : c ≠ '"' ∧ c ≠ '\\' ∧ ∀ n < 32, Char.ofNat n ≠ c := by
    simpa [escaped] using h
  have hge : ¬ c.toNat < 32 := fun hlt => hrange c.toNat hlt (Char.ofNat_toNat c)
  have hne : ∀ d : Char, d.toNat < 32 → c ≠ d := fun d hd e => hge (e ▸ hd)
  unfold escape
  rw [if_neg hquote, if_neg hbackslash, if_neg (hne _ (by decide)), if_neg (hne _ (by decide)),
    if_neg (hne _ (by decide)), if_neg (by omega), if_neg (by omega), if_neg hge]

/-- No character is written as another one begins. -/
theorem escape_apart (h : escape c <+: escape d) : c = d := by
  by_cases hc : c ∈ escaped <;> by_cases hd : d ∈ escaped
  · have hall : (escaped.all fun c => escaped.all fun d =>
        !(escape c).isPrefixOf (escape d) || c == d) = true := by decide +kernel
    have hpair := List.all_eq_true.1 (List.all_eq_true.1 hall c hc) d hd
    rw [List.isPrefixOf_iff_prefix.2 h] at hpair
    exact eq_of_beq hpair
  · obtain ⟨rest, hrest⟩ := escape_of_mem hc
    rw [hrest, escape_of_not_mem hd, List.cons_prefix_cons] at h
    exact absurd (h.1 ▸ List.mem_cons_of_mem _ List.mem_cons_self) hd
  · obtain ⟨rest, hrest⟩ := escape_of_mem hd
    rw [hrest, escape_of_not_mem hc, List.cons_prefix_cons] at h
    exact absurd (h.1 ▸ List.mem_cons_of_mem _ List.mem_cons_self) hc
  · rw [escape_of_not_mem hc, escape_of_not_mem hd, List.cons_prefix_cons] at h
    exact h.1

theorem escape_append (h : escape c ++ r = escape d ++ s) : c = d ∧ r = s := by
  have hd : escape d <+: escape c ++ r := h ▸ List.prefix_append _ _
  obtain rfl : c = d := by
    rcases List.prefix_or_prefix_of_prefix (List.prefix_append _ r) hd with hcd | hdc
    · exact escape_apart hcd
    · exact (escape_apart hdc).symm
  exact ⟨rfl, List.append_cancel_left h⟩

theorem escape_ne_quote (c : Char) (r s : List Char) : escape c ++ r ≠ '"' :: s := by
  intro h
  by_cases hc : c ∈ escaped
  · obtain ⟨rest, hrest⟩ := escape_of_mem hc
    rw [hrest] at h
    exact absurd (List.cons.inj h).1 (by decide)
  · rw [escape_of_not_mem hc] at h
    exact hc ((List.cons.inj h).1 ▸ List.mem_cons_self)

/-- Between quotes, the characters are told by how they are written. -/
theorem flatMap_escape_append {cs ds : List Char}
    (h : cs.flatMap escape ++ '"' :: r = ds.flatMap escape ++ '"' :: s) : cs = ds ∧ r = s := by
  induction cs generalizing ds with
  | nil =>
    cases ds with
    | nil => exact ⟨rfl, (List.cons.inj h).2⟩
    | cons d ds =>
      rw [List.flatMap_cons, List.append_assoc] at h
      exact absurd h.symm (escape_ne_quote _ _ _)
  | cons c cs ih =>
    cases ds with
    | nil =>
      rw [List.flatMap_cons, List.append_assoc] at h
      exact absurd h (escape_ne_quote _ _ _)
    | cons d ds =>
      rw [List.flatMap_cons, List.flatMap_cons, List.append_assoc, List.append_assoc] at h
      obtain ⟨rfl, hrest⟩ := escape_append h
      obtain ⟨rfl, rfl⟩ := ih hrest
      exact ⟨rfl, rfl⟩

theorem toList_quote (t : String) :
    (quote t).toList = '"' :: (t.toList.flatMap escape ++ ['"']) := by
  unfold quote
  simp

/-- A string tells itself in front of anything. -/
theorem quote_append {t u : String} (h : (quote t).toList ++ r = (quote u).toList ++ s) :
    t = u ∧ r = s := by
  rw [toList_quote, toList_quote, List.cons_append, List.cons_append, List.append_assoc,
    List.append_assoc] at h
  obtain ⟨htext, hrest⟩ := flatMap_escape_append (List.cons.inj h).2
  exact ⟨String.toList_inj.1 htext, hrest⟩

/-! ## Numbers -/

/-- The characters of whole numbers. -/
def isNumeric (c : Char) : Bool := c.isDigit || c == '-'

theorem isDigit_of_mem_repr {k : Nat} (h : c ∈ k.repr.toList) : c.isDigit = true :=
  Nat.isDigit_of_mem_toDigits (by decide) (by decide) (Nat.toList_repr ▸ h)

theorem eq_of_repr_eq {j k : Nat} (h : j.repr.toList = k.repr.toList) : j = k := by
  have hvalue : ∀ n : Nat, Nat.ofDigitChars 10 (Nat.toDigits 10 n) 0 = n := fun _ =>
    Nat.ofDigitChars_toDigits (by decide) (by decide)
  rw [Nat.toList_repr, Nat.toList_repr] at h
  rw [← hvalue j, h, hvalue]

theorem toList_negative (k : Nat) :
    (toString (Int.negSucc k)).toList = '-' :: k.succ.repr.toList := by
  have htext : toString (Int.negSucc k) = "-" ++ k.succ.repr := rfl
  rw [htext, String.toList_append]
  rfl

theorem isNumeric_of_mem {n : Int} (h : c ∈ (toString n).toList) : isNumeric c = true := by
  unfold isNumeric
  cases n with
  | ofNat k => rw [isDigit_of_mem_repr h, Bool.true_or]
  | negSucc k =>
    rw [toList_negative] at h
    rcases List.mem_cons.1 h with rfl | h
    · decide
    · rw [isDigit_of_mem_repr h, Bool.true_or]

/-- A number is told by its digits and whether it has a sign. -/
theorem eq_of_toString_eq {m n : Int} (h : (toString m).toList = (toString n).toList) : m = n := by
  have hsign : ∀ j k : Nat, j.repr.toList ≠ '-' :: k.succ.repr.toList := fun j k h =>
    absurd (isDigit_of_mem_repr (h ▸ List.mem_cons_self)) (by decide)
  cases m with
  | ofNat j =>
    cases n with
    | ofNat k => exact congrArg Int.ofNat (eq_of_repr_eq h)
    | negSucc k => exact absurd (h.trans (toList_negative k)) (hsign j k)
  | negSucc j =>
    cases n with
    | ofNat k => exact absurd (h.symm.trans (toList_negative j)) (hsign k j)
    | negSucc k =>
      rw [toList_negative, toList_negative] at h
      exact congrArg Int.negSucc (Nat.succ.inj (eq_of_repr_eq (List.cons.inj h).2))

theorem takeWhile_of_behind (hr : Behind r) : r.takeWhile isNumeric = [] := by
  cases r with
  | nil => rfl
  | cons c r => rcases hr c rfl with rfl | rfl <;> rfl

theorem number_append {m n : Int} (hr : Behind r) (hs : Behind s)
    (h : (toString m).toList ++ r = (toString n).toList ++ s) : m = n ∧ r = s := by
  have hnumber : ∀ (n : Int) (r : List Char), Behind r →
      ((toString n).toList ++ r).takeWhile isNumeric = (toString n).toList := by
    intro n r hr
    rw [List.takeWhile_append_of_pos fun _ => isNumeric_of_mem, takeWhile_of_behind hr,
      List.append_nil]
  have htext := hnumber m r hr
  rw [h, hnumber n s hs] at htext
  obtain rfl := eq_of_toString_eq htext
  exact ⟨rfl, List.append_cancel_left h⟩

/-! ## Lists -/

section

variable {α : Type} {text : α → String} {items items' : List α} {opening closing : String}

/-- The items with a comma before each of them. -/
def listed (text : α → String) (level : Nat) (items : List α) : List Char :=
  items.flatMap fun a => ',' :: ((lineStart level).toList ++ (text a).toList)

theorem listed_cons (a : α) : listed text level (a :: items) =
    ',' :: ((lineStart level).toList ++ ((text a).toList ++ listed text level items)) := by
  unfold listed
  simp

theorem listed_append (htells : ∀ a ∈ items, Tells text a)
    (h : listed text level items ++ '\n' :: r = listed text level items' ++ '\n' :: s) :
    items = items' ∧ r = s := by
  have hbehind : ∀ (items : List α) (r : List Char),
      Behind (listed text level items ++ '\n' :: r) := by
    intro items r
    cases items with
    | nil => exact behind_newline r
    | cons a items =>
      rw [listed_cons]
      exact behind_comma _
  induction items generalizing items' with
  | nil =>
    cases items' with
    | nil => exact ⟨rfl, (List.cons.inj h).2⟩
    | cons a items' =>
      rw [listed_cons] at h
      exact absurd (List.cons.inj h).1 (by decide)
  | cons a items ih =>
    rw [listed_cons] at h
    cases items' with
    | nil => exact absurd (List.cons.inj h).1 (by decide)
    | cons a' items' =>
      rw [listed_cons, List.cons_append, List.cons_append, List.append_assoc, List.append_assoc,
        List.append_assoc, List.append_assoc] at h
      have hitem := List.append_cancel_left (List.cons.inj h).2
      obtain ⟨rfl, hrest⟩ :=
        htells a List.mem_cons_self a' _ _ (hbehind items r) (hbehind items' s) hitem
      obtain ⟨rfl, rfl⟩ := ih (fun b hb => htells b (List.mem_cons_of_mem _ hb)) hrest
      exact ⟨rfl, rfl⟩

theorem comma_intercalate (p : String) (parts : List String) :
    ',' :: (",".intercalate (p :: parts)).toList =
      (p :: parts).flatMap fun q => ',' :: q.toList := by
  rw [String.toList_intercalate]
  induction parts generalizing p with
  | nil => simp
  | cons q parts ih =>
    rw [List.map_cons, List.map_cons, List.intercalate_cons_cons, List.flatMap_cons, ← ih q]
    simp

/-- Between its brackets, a list is written as its items are listed, without the first comma. -/
theorem bracketed_cons_append (a : α) :
    ∃ rest, listed text (level + 1) (a :: items) = ',' :: '\n' :: rest ∧
      ∀ r, (bracketed opening closing level ((a :: items).map text)).toList ++ r =
        opening.toList ++
          '\n' :: (rest ++ '\n' :: (List.replicate (2 * level) ' ' ++ (closing.toList ++ r))) := by
  obtain ⟨rest, hrest⟩ : ∃ rest, listed text (level + 1) (a :: items) = ',' :: '\n' :: rest :=
    ⟨_, by rw [listed_cons]; simp [lineStart]; rfl⟩
  have hlisted : listed text (level + 1) (a :: items) = ((lineStart (level + 1) ++ text a) ::
      (items.map text).map (lineStart (level + 1) ++ ·)).flatMap fun q => ',' :: q.toList := by
    unfold listed
    simp [List.flatMap_map]
  rw [← comma_intercalate, hrest] at hlisted
  refine ⟨rest, hrest, fun r => ?_⟩
  unfold bracketed
  rw [List.map_cons, List.isEmpty_cons, if_neg Bool.false_ne_true, List.map_cons,
    String.toList_append, String.toList_append, String.toList_append, ← (List.cons.inj hlisted).2]
  simp [lineStart]

theorem bracketed_nil_append (r : List Char) :
    (bracketed opening closing level (([] : List α).map text)).toList ++ r =
      opening.toList ++ (closing.toList ++ r) := by
  unfold bracketed
  simp

/-- In brackets of which the second is no new line, the text of a list tells its items. -/
theorem bracketed_append {close : Char} (hclose : close ≠ '\n')
    (hclosing : closing.toList = [close]) (htells : ∀ a ∈ items, Tells text a)
    (h : (bracketed opening closing level (items.map text)).toList ++ r =
      (bracketed opening closing level (items'.map text)).toList ++ s) :
    items = items' ∧ r = s := by
  cases items with
  | nil =>
    rw [bracketed_nil_append, hclosing] at h
    cases items' with
    | nil =>
      rw [bracketed_nil_append, hclosing] at h
      exact ⟨rfl, (List.cons.inj (List.append_cancel_left h)).2⟩
    | cons a' items' =>
      obtain ⟨rest', -, htext'⟩ := bracketed_cons_append a'
      rw [htext'] at h
      exact absurd (List.cons.inj (List.append_cancel_left h)).1 hclose
  | cons a items =>
    obtain ⟨rest, hlisted, htext⟩ := bracketed_cons_append a
    rw [htext] at h
    cases items' with
    | nil =>
      rw [bracketed_nil_append, hclosing] at h
      exact absurd (List.cons.inj (List.append_cancel_left h)).1.symm hclose
    | cons a' items' =>
      obtain ⟨rest', hlisted', htext'⟩ := bracketed_cons_append a'
      rw [htext'] at h
      have hlines := congrArg (',' :: ·) (List.append_cancel_left h)
      simp only [← List.cons_append, ← hlisted, ← hlisted'] at hlines
      obtain ⟨hitems, hrest⟩ := listed_append htells hlines
      exact ⟨hitems, List.append_cancel_left (List.append_cancel_left hrest)⟩

end

/-! ## Values -/

/-- The form of a value, as the first character of its text tells it. A zero stands for all that a
number can begin with, and a `t` for both truth values. -/
def mark : Json → Char
  | null => 'n'
  | bool _ => 't'
  | int _ => '0'
  | str _ => '"'
  | arr _ => '['
  | obj _ => '\x7b'

/-- The mark of the values whose texts begin with the character. -/
def markOf (c : Char) : Char := if isNumeric c then '0' else if c = 'f' then 't' else c

theorem exists_bracketed_eq (opening closing : String) (level : Nat) (parts : List String) :
    ∃ rest, (bracketed opening closing level parts).toList = opening.toList ++ rest := by
  unfold bracketed
  split
  · exact ⟨_, String.toList_append⟩
  · simp only [String.toList_append, List.append_assoc]
    exact ⟨_, rfl⟩

theorem exists_first (v : Json) (level : Nat) :
    ∃ c rest, (v.prettyAt level).toList = c :: rest ∧ markOf c = v.mark := by
  cases v with
  | null => exact ⟨'n', ['u', 'l', 'l'], by simp [prettyAt], rfl⟩
  | bool b =>
    cases b with
    | false => exact ⟨'f', ['a', 'l', 's', 'e'], by simp [prettyAt], rfl⟩
    | true => exact ⟨'t', ['r', 'u', 'e'], by simp [prettyAt], rfl⟩
  | int n =>
    have hne : (toString n).toList ≠ [] := by
      cases n with
      | ofNat k => exact Nat.toList_repr ▸ Nat.toDigits_ne_nil
      | negSucc k => exact toList_negative k ▸ List.cons_ne_nil _ _
    obtain ⟨c, rest, htext⟩ := List.exists_cons_of_ne_nil hne
    exact ⟨c, rest, htext, if_pos (isNumeric_of_mem (htext ▸ List.mem_cons_self))⟩
  | str t => exact ⟨'"', _, toList_quote t, rfl⟩
  | arr items =>
    obtain ⟨rest, htext⟩ := exists_bracketed_eq "[" "]" level (prettyItems (level + 1) items)
    exact ⟨'[', rest, htext, rfl⟩
  | obj members =>
    obtain ⟨rest, htext⟩ :=
      exists_bracketed_eq "\x7b" "\x7d" level (prettyMembers (level + 1) members)
    exact ⟨'\x7b', rest, htext, rfl⟩

theorem mark_eq {v w : Json}
    (h : (v.prettyAt level).toList ++ r = (w.prettyAt level).toList ++ s) : v.mark = w.mark := by
  obtain ⟨c, rest, hv, hc⟩ := exists_first v level
  obtain ⟨d, rest', hw, hd⟩ := exists_first w level
  rw [hv, hw] at h
  rw [← hc, ← hd, (List.cons.inj h).1]

/-- A member as it is written, its value at the given level. -/
def memberText (level : Nat) (m : String × Json) : String := quote m.1 ++ ": " ++ m.2.prettyAt level

theorem prettyItems_eq (level : Nat) (items : List Json) :
    prettyItems level items = items.map (prettyAt level) := by
  induction items with
  | nil => rfl
  | cons v items ih => rw [prettyItems, ih, List.map_cons]

theorem prettyMembers_eq (level : Nat) (members : List (String × Json)) :
    prettyMembers level members = members.map (memberText level) := by
  induction members with
  | nil => rfl
  | cons m members ih => rw [prettyMembers, ih, List.map_cons, memberText]

theorem tells_member {m : String × Json} (h : Tells (prettyAt level) m.2) :
    Tells (memberText level) m := by
  rintro ⟨key, v⟩ r s hr hs htext
  unfold memberText at htext
  simp only [String.toList_append, List.append_assoc] at htext
  obtain ⟨hkey, hrest⟩ := quote_append htext
  obtain ⟨hvalue, hrest⟩ := h v r s hr hs (List.append_cancel_left hrest)
  exact ⟨Prod.ext hkey hvalue, hrest⟩

mutual

theorem tells_value : ∀ (v : Json) (level : Nat), Tells (prettyAt level) v
  | null, level => by
    intro w r s hr hs h
    have hmark := mark_eq h
    cases w with
    | null => exact ⟨rfl, List.append_cancel_left h⟩
    | _ => cases hmark
  | bool b, level => by
    intro w r s hr hs h
    have hmark := mark_eq h
    cases w with
    | bool b' =>
      obtain rfl : b = b' := by
        cases b <;> cases b'
        · rfl
        · simp [prettyAt] at h
        · simp [prettyAt] at h
        · rfl
      exact ⟨rfl, List.append_cancel_left h⟩
    | _ => cases hmark
  | int n, level => by
    intro w r s hr hs h
    have hmark := mark_eq h
    cases w with
    | int n' =>
      obtain ⟨rfl, hrest⟩ := number_append hr hs h
      exact ⟨rfl, hrest⟩
    | _ => cases hmark
  | str t, level => by
    intro w r s hr hs h
    have hmark := mark_eq h
    cases w with
    | str t' =>
      obtain ⟨rfl, hrest⟩ := quote_append h
      exact ⟨rfl, hrest⟩
    | _ => cases hmark
  | arr items, level => by
    intro w r s hr hs h
    have hmark := mark_eq h
    cases w with
    | arr items' =>
      simp only [prettyAt, prettyItems_eq] at h
      obtain ⟨rfl, hrest⟩ :=
        bracketed_append (by decide) rfl (tells_items items (level + 1)) h
      exact ⟨rfl, hrest⟩
    | _ => cases hmark
  | obj members, level => by
    intro w r s hr hs h
    have hmark := mark_eq h
    cases w with
    | obj members' =>
      simp only [prettyAt, prettyMembers_eq] at h
      obtain ⟨rfl, hrest⟩ :=
        bracketed_append (by decide) rfl (tells_members members (level + 1)) h
      exact ⟨rfl, hrest⟩
    | _ => cases hmark

theorem tells_items : ∀ (items : List Json) (level : Nat), ∀ v ∈ items, Tells (prettyAt level) v
  | [], _ => by simp
  | v :: items, level => List.forall_mem_cons.2 ⟨tells_value v level, tells_items items level⟩

theorem tells_members : ∀ (members : List (String × Json)) (level : Nat),
    ∀ m ∈ members, Tells (memberText level) m
  | [], _ => by simp
  | (_, v) :: members, level =>
    List.forall_mem_cons.2 ⟨tells_member (tells_value v level), tells_members members level⟩

end

/-- No two values have the same text. -/
theorem pretty_injective : Function.Injective pretty := by
  intro v w h
  refine (tells_value v 0 w [] [] behind_nil behind_nil ?_).1
  rw [List.append_nil, List.append_nil]
  exact congrArg String.toList h

end Blueprint.Json
