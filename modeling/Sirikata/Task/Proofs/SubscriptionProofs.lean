import Sirikata.Task.Subscription
import Mathlib.Data.List.Lex

/-!
# `SubscriptionId`: what `operator<` orders and what `operator==` tells apart

`operator<` is the lexicographic order on `key`: the pointer, then the class id with `NULL` first,
then, under a non-`NULL` class id only, the unique id (`lt_iff_keyLt`). It is a strict weak order
whose incomparable pairs are exactly those with one key (`lt_irrefl`, `lt_trans`,
`not_lt_and_not_lt_iff`). `operator==` compares the unique ids under `NULL` class ids as well, so
two ids with the same pointer, `NULL` class ids and different unique ids are incomparable yet not
equal (`lt_incomparable_null`). The order on the strings themselves is the library's
lexicographic order on the character codes (`stringLt_iff`), from which it takes its laws.
-/

namespace Iridium.Task

/-! ## `strcmp` and `std::string::operator<` -/

variable {a b c : List UInt8}

/-- `std::string::operator<` is the lexicographic order on the character codes. -/
theorem stringLt_iff : stringLt a b = true ↔ a.map UInt8.toNat < b.map UInt8.toNat := by
  induction a generalizing b with
  | nil => cases b <;> simp [stringLt, List.nil_lt_cons]
  | cons x a ih =>
    cases b with
    | nil => simp [stringLt]
    | cons y b =>
      simp only [stringLt, List.map_cons]
      by_cases hxy : x = y
      · subst hxy
        rw [if_pos rfl, ih]
        exact List.Lex.cons_iff.symm
      · have hne : x.toNat ≠ y.toNat := fun e => hxy (UInt8.toNat.inj e)
        rw [if_neg hxy, decide_eq_true_iff]
        generalize x.toNat = m, y.toNat = n at hne ⊢
        refine ⟨List.Lex.rel, ?_⟩
        rintro (_ | h | h)
        · exact absurd rfl hne
        · exact h

theorem stringLt_irrefl (a : List UInt8) : stringLt a a = false :=
  Bool.eq_false_iff.mpr fun h => lt_irrefl _ (stringLt_iff.mp h)

theorem stringLt_trans : stringLt a b → stringLt b c → stringLt a c := fun h₁ h₂ =>
  stringLt_iff.mpr (lt_trans (stringLt_iff.mp h₁) (stringLt_iff.mp h₂))

/-- Two strings that differ are ordered one way or the other. -/
theorem stringLt_total (h : a ≠ b) : stringLt a b ∨ stringLt b a := by
  have hne : a.map UInt8.toNat ≠ b.map UInt8.toNat :=
    fun e => h (List.map_injective_iff.mpr (fun _ _ => UInt8.toNat.inj) e)
  simpa only [stringLt_iff] using lt_or_gt_of_ne hne

@[simp] theorem strcmp_self (a : List UInt8) : strcmp a a = 0 := by
  induction a with
  | nil => rfl
  | cons x a ih => simp [strcmp, ih]

theorem toNat_ne_zero_of_not_mem {x : UInt8} {l : List UInt8} (h : (0 : UInt8) ∉ x :: l) :
    x.toNat ≠ 0 :=
  fun e => h (List.mem_cons.mpr (.inl (UInt8.toNat.inj (b := 0) e).symm))

theorem strcmp_eq_zero_iff (ha : (0 : UInt8) ∉ a) (hb : (0 : UInt8) ∉ b) :
    strcmp a b = 0 ↔ a = b := by
  induction a generalizing b with
  | nil =>
    cases b with
    | nil => simp [strcmp]
    | cons y b =>
      have := toNat_ne_zero_of_not_mem hb
      simp [strcmp]; omega
  | cons x a ih =>
    cases b with
    | nil =>
      have := toNat_ne_zero_of_not_mem ha
      simp [strcmp]; omega
    | cons y b =>
      simp only [strcmp, List.cons.injEq]
      by_cases hxy : x = y
      · simp [hxy, ih (fun h => ha (List.mem_cons_of_mem _ h)) (fun h => hb (List.mem_cons_of_mem _ h))]
      · have : x.toNat ≠ y.toNat := fun e => hxy (UInt8.toNat.inj e)
        simp [hxy]; omega

theorem strcmp_neg_iff (ha : (0 : UInt8) ∉ a) (hb : (0 : UInt8) ∉ b) :
    strcmp a b < 0 ↔ stringLt a b := by
  induction a generalizing b with
  | nil =>
    cases b with
    | nil => simp [strcmp, stringLt]
    | cons y b =>
      have := toNat_ne_zero_of_not_mem hb
      simp [strcmp, stringLt]; omega
  | cons x a ih =>
    cases b with
    | nil => simp only [strcmp, stringLt, Bool.false_eq_true, iff_false, not_lt]; omega
    | cons y b =>
      simp only [strcmp, stringLt]
      by_cases hxy : x = y
      · simp [hxy, ih (fun h => ha (List.mem_cons_of_mem _ h)) (fun h => hb (List.mem_cons_of_mem _ h))]
      · simp only [hxy, if_false, decide_eq_true_eq]; omega

/-! ## `operator<` is the lexicographic order on `key` -/

/-- The lexicographic order on class ids and unique ids, `NULL` first. -/
def OptLt : Option (List UInt8 × List UInt8) → Option (List UInt8 × List UInt8) → Prop
  | none, some _ => True
  | some (a, u), some (b, v) => stringLt a b ∨ a = b ∧ stringLt u v
  | _, _ => False

/-- The lexicographic order on keys. -/
def KeyLt (k k' : Nat × Option (List UInt8 × List UInt8)) : Prop :=
  k.1 < k'.1 ∨ k.1 = k'.1 ∧ OptLt k.2 k'.2

theorem optLt_irrefl (o : Option (List UInt8 × List UInt8)) : ¬ OptLt o o := by
  rcases o with _ | ⟨a, u⟩ <;> simp [OptLt, stringLt_irrefl]

theorem optLt_trans {o o' o'' : Option (List UInt8 × List UInt8)} :
    OptLt o o' → OptLt o' o'' → OptLt o o'' := by
  rcases o with _ | ⟨a, u⟩ <;> rcases o' with _ | ⟨b, v⟩ <;> rcases o'' with _ | ⟨c, w⟩ <;>
    simp only [OptLt, imp_self, implies_true, false_implies, imp_false, not_true, true_implies]
  rintro (h₁ | ⟨rfl, h₁⟩) (h₂ | ⟨rfl, h₂⟩)
  · exact .inl (stringLt_trans h₁ h₂)
  · exact .inl h₁
  · exact .inl h₂
  · exact .inr ⟨rfl, stringLt_trans h₁ h₂⟩

/-- Two options that differ are ordered one way or the other. -/
theorem optLt_total {o o' : Option (List UInt8 × List UInt8)} (h : o ≠ o') :
    OptLt o o' ∨ OptLt o' o := by
  rcases o with _ | ⟨a, u⟩ <;> rcases o' with _ | ⟨b, v⟩ <;> simp_all [OptLt]
  by_cases hab : a = b
  · subst hab
    rcases stringLt_total (h rfl) with h' | h' <;> simp [h']
  · rcases stringLt_total hab with h' | h' <;> simp [h']

theorem keyLt_irrefl (k : Nat × Option (List UInt8 × List UInt8)) : ¬ KeyLt k k := by
  simp [KeyLt, optLt_irrefl]

theorem keyLt_trans {k k' k'' : Nat × Option (List UInt8 × List UInt8)} :
    KeyLt k k' → KeyLt k' k'' → KeyLt k k'' := by
  rintro (h₁ | ⟨e₁, h₁⟩) (h₂ | ⟨e₂, h₂⟩)
  · exact .inl (Nat.lt_trans h₁ h₂)
  · exact .inl (e₂ ▸ h₁)
  · exact .inl (e₁ ▸ h₂)
  · exact .inr ⟨e₁.trans e₂, optLt_trans h₁ h₂⟩

/-- Keys neither of which comes first are one key. -/
theorem not_keyLt_and_not_keyLt_iff {k k' : Nat × Option (List UInt8 × List UInt8)} :
    ¬ KeyLt k k' ∧ ¬ KeyLt k' k ↔ k = k' := by
  refine ⟨fun ⟨h₁, h₂⟩ => ?_, by rintro rfl; exact ⟨keyLt_irrefl k, keyLt_irrefl k⟩⟩
  obtain ⟨p, o⟩ := k
  obtain ⟨q, o'⟩ := k'
  simp only [KeyLt, not_or, not_and] at h₁ h₂
  have hpq : p = q := by omega
  subst hpq
  by_contra hne
  have hoo : o ≠ o' := fun e => hne (by rw [e])
  rcases optLt_total hoo with h | h
  · exact h₁.2 rfl h
  · exact h₂.2 rfl h

/-- The characters a `const char *` points to, `none` for `NULL`. -/
def CStrPtr.chars : CStrPtr → Option (List UInt8)
  | .null => none
  | .ptr _ s => some s.bytes

namespace SubscriptionId

/-- What `operator<` reads of an id: the pointer, and the characters of the class id and of the
unique id unless the class id is `NULL`. -/
def key (x : SubscriptionId) : Nat × Option (List UInt8 × List UInt8) :=
  (x.thisPtr, match x.classId with
    | .null => none
    | .ptr _ a => some (a.bytes, x.uniqueId.chars))

variable {x y z : SubscriptionId}

theorem lt_iff_keyLt : lt x y = true ↔ KeyLt x.key y.key := by
  obtain ⟨p, cx, ux⟩ := x
  obtain ⟨q, cy, uy⟩ := y
  unfold lt
  by_cases hpq : p = q
  · subst hpq
    rcases cx with _ | ⟨_, a⟩ <;> rcases cy with _ | ⟨_, b⟩ <;> simp [key, KeyLt, OptLt]
    by_cases hab : a.bytes = b.bytes
    · simp [hab, stringLt_irrefl]
    · simp [mt (strcmp_eq_zero_iff a.no_nul b.no_nul).mp hab, hab,
        strcmp_neg_iff a.no_nul b.no_nul]
  · simp [hpq, key, KeyLt]

/-- `operator<` is irreflexive. -/
theorem lt_irrefl (x : SubscriptionId) : lt x x = false := by
  simpa [← lt_iff_keyLt] using keyLt_irrefl x.key

/-- `operator<` is transitive. -/
theorem lt_trans (h₁ : lt x y = true) (h₂ : lt y z = true) : lt x z = true :=
  lt_iff_keyLt.mpr (keyLt_trans (lt_iff_keyLt.mp h₁) (lt_iff_keyLt.mp h₂))

/-- Two ids neither of which is less than the other are those with one key. -/
theorem not_lt_and_not_lt_iff : lt x y = false ∧ lt y x = false ↔ x.key = y.key := by
  simpa [← Bool.not_eq_true, lt_iff_keyLt] using not_keyLt_and_not_keyLt_iff

/-- `operator==` compares the key and the unique id's characters. -/
theorem eq_iff : eq x y = true ↔ x.key = y.key ∧ x.uniqueId.chars = y.uniqueId.chars := by
  obtain ⟨p, cx, ux⟩ := x
  obtain ⟨q, cy, uy⟩ := y
  unfold eq
  by_cases hpq : p = q
  · subst hpq
    rcases cx with _ | ⟨_, a⟩ <;> rcases cy with _ | ⟨_, b⟩ <;> simp [key]
    rw [strcmp_eq_zero_iff a.no_nul b.no_nul]
    by_cases hab : a.bytes = b.bytes <;> simp [hab]
  · simp [hpq, key]

/-- Two ids with one pointer, `NULL` class ids and the unique ids `"a"` and `"b"`: neither is less
than the other, and `operator==` tells them apart. -/
theorem lt_incomparable_null :
    lt ⟨0, .null, ⟨[97], 1⟩⟩ ⟨0, .null, ⟨[98], 2⟩⟩ = false ∧
      lt ⟨0, .null, ⟨[98], 2⟩⟩ ⟨0, .null, ⟨[97], 1⟩⟩ = false ∧
      eq ⟨0, .null, ⟨[97], 1⟩⟩ ⟨0, .null, ⟨[98], 2⟩⟩ = false := by
  decide

/-- `operator<` is a strict weak order on all ids: irreflexive, transitive, and two ids are
incomparable exactly when they have one key, that is one pointer, class ids that are both `NULL` or
name one string, and, under a non-`NULL` class id, unique ids with the same characters. -/
theorem lt_strictWeakOrder :
    (∀ x, lt x x = false) ∧ (∀ x y z, lt x y = true → lt y z = true → lt x z = true) ∧
      ∀ x y, lt x y = false ∧ lt y x = false ↔ x.key = y.key :=
  ⟨lt_irrefl, fun _ _ _ => lt_trans, fun _ _ => not_lt_and_not_lt_iff⟩

/-- Ids with one key are those `operator==` calls equal, and those with one pointer and `NULL` class
ids. -/
theorem key_eq_iff : x.key = y.key ↔
    eq x y = true ∨ (x.thisPtr = y.thisPtr ∧ x.classId = .null ∧ y.classId = .null) := by
  rw [eq_iff]
  obtain ⟨p, cx, ux⟩ := x
  obtain ⟨q, cy, uy⟩ := y
  rcases cx with _ | ⟨_, a⟩ <;> rcases cy with _ | ⟨_, b⟩ <;> simp [key]
  all_goals exact fun h _ => h

/-- `operator==` is an equivalence relation on all ids, and finer than incomparability under
`operator<`: two ids are incomparable exactly when `operator==` calls them equal or they have one
pointer and `NULL` class ids. -/
theorem eq_equivalence :
    Equivalence (fun x y : SubscriptionId => eq x y = true) ∧
      ∀ x y, lt x y = false ∧ lt y x = false ↔
        eq x y = true ∨ (x.thisPtr = y.thisPtr ∧ x.classId = .null ∧ y.classId = .null) := by
  refine ⟨⟨fun _ => eq_iff.mpr ⟨rfl, rfl⟩, fun h => ?_, fun h₁ h₂ => ?_⟩,
    fun _ _ => not_lt_and_not_lt_iff.trans key_eq_iff⟩
  · obtain ⟨hk, hc⟩ := eq_iff.mp h
    exact eq_iff.mpr ⟨hk.symm, hc.symm⟩
  · obtain ⟨hk₁, hc₁⟩ := eq_iff.mp h₁
    obtain ⟨hk₂, hc₂⟩ := eq_iff.mp h₂
    exact eq_iff.mpr ⟨hk₁.trans hk₂, hc₁.trans hc₂⟩

/-! ## `Hasher` and `HASH<const char *>` -/

/-- Ids with one key point to the same class id characters. -/
theorem classId_chars_of_key (h : x.key = y.key) : x.classId.chars = y.classId.chars := by
  obtain ⟨p, cx, ux⟩ := x
  obtain ⟨q, cy, uy⟩ := y
  rcases cx with _ | ⟨_, a⟩ <;> rcases cy with _ | ⟨_, b⟩ <;> simp_all [key, CStrPtr.chars]

/-- With a `HASH<const char *>` that reads no more than whether its argument is `NULL` and the
characters it points to, ids that `operator==` calls equal hash alike. -/
theorem hasher_eq_of_eq (hashIntptr : Nat → UInt64) (hashCStr : CStrPtr → UInt64)
    (hcontent : ∀ p q, p.chars = q.chars → hashCStr p = hashCStr q) (h : eq x y = true) :
    hasher hashIntptr hashCStr x = hasher hashIntptr hashCStr y := by
  obtain ⟨hkey, hchars⟩ := eq_iff.mp h
  have hptr : x.thisPtr = y.thisPtr := congrArg Prod.fst hkey
  have hc := hcontent _ _ (classId_chars_of_key hkey)
  have hu := hcontent x.uniqueId.cStr y.uniqueId.cStr (by simp [StdString.cStr, CStrPtr.chars, hchars])
  simp only [hasher, hptr, hc, hu]

/-- With a `HASH<const char *>` that hashes the pointer itself, as `std::tr1::hash<T *>` does, two ids
that `operator==` calls equal hash apart when their unique ids live in different buffers. -/
theorem hasher_ne_of_buffer :
    eq ⟨0, .null, ⟨[97], 1⟩⟩ ⟨0, .null, ⟨[97], 2⟩⟩ = true ∧
      hasher (fun _ => 0) (fun | .null => 0 | .ptr addr _ => addr.toUInt64) ⟨0, .null, ⟨[97], 1⟩⟩ ≠
        hasher (fun _ => 0) (fun | .null => 0 | .ptr addr _ => addr.toUInt64)
          ⟨0, .null, ⟨[97], 2⟩⟩ := by
  decide

end SubscriptionId

end Iridium.Task
