import QubitLang.Proofs.Language.Nesting

/-! Token sequences that take the place of others without nesting deeper. -/

namespace QubitLang

/-! ## Limits at any depth -/

/-- From some depth on, at no token are more brackets open than the limit allows. -/
def StaysWithin (limit depth : Nat) (tokens : List Token) : Prop :=
  ∀ before, before <+: tokens → before.foldl Token.depthAfter depth ≤ limit

section

variable {limit depth : Nat} {token : Token} {tokens more : List Token}

theorem staysWithin_nil_iff : StaysWithin limit depth [] ↔ depth ≤ limit := by
  simp [StaysWithin]

theorem staysWithin_cons_iff : StaysWithin limit depth (token :: tokens) ↔
    depth ≤ limit ∧ StaysWithin limit (token.depthAfter depth) tokens := by
  constructor
  · intro within
    refine ⟨within [] List.nil_prefix, fun before isHead => ?_⟩
    exact within (token :: before) (List.prefix_cons_iff.mpr (.inr ⟨before, rfl, isHead⟩))
  · rintro ⟨shallow, within⟩ before isHead
    rcases List.prefix_cons_iff.mp isHead with rfl | ⟨rest, rfl, restIsHead⟩
    · exact shallow
    · exact within rest restIsHead

theorem staysWithin_append_iff : StaysWithin limit depth (tokens ++ more) ↔
    StaysWithin limit depth tokens ∧
      StaysWithin limit (tokens.foldl Token.depthAfter depth) more := by
  induction tokens generalizing depth with
  | nil =>
      rw [List.nil_append, staysWithin_nil_iff]
      exact (and_iff_right_of_imp fun within => within [] List.nil_prefix).symm
  | cons token tokens induction =>
      rw [List.cons_append, staysWithin_cons_iff, staysWithin_cons_iff, induction, and_assoc]
      rfl

theorem Token.depthAfter_mono {shallow depth : Nat} (order : shallow ≤ depth) (token : Token) :
    token.depthAfter shallow ≤ token.depthAfter depth := by
  unfold depthAfter
  split <;> omega

theorem StaysWithin.of_le {shallow : Nat} (within : StaysWithin limit depth tokens)
    (order : shallow ≤ depth) : StaysWithin limit shallow tokens := by
  induction tokens generalizing shallow depth with
  | nil => exact staysWithin_nil_iff.mpr (Nat.le_trans order (staysWithin_nil_iff.mp within))
  | cons token tokens induction =>
      obtain ⟨inside, later⟩ := staysWithin_cons_iff.mp within
      exact staysWithin_cons_iff.mpr
        ⟨Nat.le_trans order inside, induction later (Token.depthAfter_mono order token)⟩

end

/-! ## Taking the place of other tokens -/

/-- Tokens that leave all brackets as they were, and stay within every limit within which
some other tokens stay. -/
structure NoDeeper (tokens others : List Token) : Prop where
  balanced : ∀ depth, tokens.foldl Token.depthAfter depth = depth
  others_balanced : ∀ depth, others.foldl Token.depthAfter depth = depth
  within : ∀ {limit depth : Nat}, StaysWithin limit depth others → StaysWithin limit depth tokens

namespace NoDeeper

variable {token other opening closing : Token} {tokens others more otherMore : List Token}

theorem nil : NoDeeper [] [] := ⟨fun _ => rfl, fun _ => rfl, fun within => within⟩

theorem append (first : NoDeeper tokens others) (second : NoDeeper more otherMore) :
    NoDeeper (tokens ++ more) (others ++ otherMore) where
  balanced depth := by rw [List.foldl_append, first.balanced, second.balanced]
  others_balanced depth := by
    rw [List.foldl_append, first.others_balanced, second.others_balanced]
  within stays := by
    rw [staysWithin_append_iff, first.others_balanced] at stays
    rw [staysWithin_append_iff, first.balanced]
    exact ⟨first.within stays.1, second.within stays.2⟩

theorem insert (flat : ∀ depth, token.depthAfter depth = depth)
    (later : NoDeeper tokens others) : NoDeeper (token :: tokens) others where
  balanced depth := by rw [List.foldl_cons, flat, later.balanced]
  others_balanced := later.others_balanced
  within stays := by
    rw [staysWithin_cons_iff, flat]
    exact ⟨stays [] List.nil_prefix, later.within stays⟩

theorem drop (flat : ∀ depth, other.depthAfter depth = depth)
    (later : NoDeeper tokens others) : NoDeeper tokens (other :: others) where
  balanced := later.balanced
  others_balanced depth := by rw [List.foldl_cons, flat, later.others_balanced]
  within stays := by
    rw [staysWithin_cons_iff, flat] at stays
    exact later.within stays.2

theorem cons (flat : ∀ depth, token.depthAfter depth = depth)
    (otherFlat : ∀ depth, other.depthAfter depth = depth) (later : NoDeeper tokens others) :
    NoDeeper (token :: tokens) (other :: others) :=
  (later.drop otherFlat).insert flat

section

variable (opens : ∀ depth, opening.depthAfter depth = depth + 1)
  (closes : ∀ depth, closing.depthAfter depth = depth - 1)

include opens closes

theorem unwrap (inside : NoDeeper tokens others) :
    NoDeeper tokens (opening :: (others ++ [closing])) where
  balanced := inside.balanced
  others_balanced depth := by
    rw [List.foldl_cons, opens, List.foldl_append, inside.others_balanced]
    exact closes (depth + 1)
  within stays := by
    rw [staysWithin_cons_iff, opens, staysWithin_append_iff] at stays
    exact (inside.within stays.2.1).of_le (Nat.le_succ _)

theorem wrap (inside : NoDeeper tokens others) :
    NoDeeper (opening :: (tokens ++ [closing])) (opening :: (others ++ [closing])) where
  balanced depth := by
    rw [List.foldl_cons, opens, List.foldl_append, inside.balanced]
    exact closes (depth + 1)
  others_balanced := (inside.unwrap opens closes).others_balanced
  within stays := by
    rw [staysWithin_cons_iff, opens, staysWithin_append_iff, inside.others_balanced] at stays
    rw [staysWithin_cons_iff, opens, staysWithin_append_iff, inside.balanced]
    exact ⟨stays.1, inside.within stays.2.1, stays.2.2⟩

end

end NoDeeper

end QubitLang
