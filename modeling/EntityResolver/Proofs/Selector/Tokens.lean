import EntityResolver.Proofs.Checked
import EntityResolver.Selector.Token

/-!
Tokens and the texts that they are written with.

What a text is split into spells the text again. The other way round, tokens are found in a text
whatever comes behind it, as long as that does not go on with a name.
-/

set_option autoImplicit false

namespace EntityResolver.Selector

instance : DecidablePred IsIdentifier
  | [] => isFalse fun ⟨_, _, same, _⟩ => List.cons_ne_nil _ _ same.symm
  | c :: rest =>
      decidable_of_iff (isNameStart c = true ∧ rest.all isNameRest = true)
        ⟨fun ⟨start, inside⟩ => ⟨c, rest, rfl, start, List.all_eq_true.mp inside⟩,
          by rintro ⟨_, _, ⟨⟩, start, inside⟩; exact ⟨start, List.all_eq_true.mpr inside⟩⟩

namespace Token

def spelling : Token → List Char
  | .opening => ['[']
  | .closing => [']']
  | .pipe => ['|']
  | .star => ['*']
  | .name text => text.toList

def IsProper : Token → Prop
  | .name text => IsIdentifier text.toList
  | .opening | .closing | .pipe | .star => True

theorem mem_of_sign? {c : Char} {sign : Token} (found : Token.sign? c = some sign) :
    (c, sign) ∈ [('[', opening), (']', closing), ('|', pipe), ('*', star)] := by
  unfold Token.sign? at found
  grind

theorem spelling_of_sign? {c : Char} {sign : Token} (found : Token.sign? c = some sign) :
    sign.spelling = [c] ∧ sign.IsProper := by
  have listed := mem_of_sign? found
  simp only [List.mem_cons, Prod.mk.injEq, List.not_mem_nil, or_false] at listed
  rcases listed with ⟨rfl, rfl⟩ | ⟨rfl, rfl⟩ | ⟨rfl, rfl⟩ | ⟨rfl, rfl⟩ <;> exact ⟨rfl, trivial⟩

end Token

def spell (tokens : List Token) : List Char :=
  tokens.flatMap Token.spelling

@[simp] theorem spell_nil : spell [] = [] := rfl

@[simp] theorem spell_cons (token : Token) (tokens : List Token) :
    spell (token :: tokens) = token.spelling ++ spell tokens := rfl

@[simp] theorem spell_append (tokens others : List Token) :
    spell (tokens ++ others) = spell tokens ++ spell others :=
  List.flatMap_append

theorem tokenize_sign {c : Char} {sign : Token} (found : Token.sign? c = some sign)
    (text : List Char) : tokenize (c :: text) = (tokenize text).map (sign :: ·) := by
  rw [tokenize, found]

theorem tokenize_name {c : Char} (unsigned : Token.sign? c = none) (start : isNameStart c = true)
    (text : List Char) :
    tokenize (c :: text) =
      (tokenize (text.dropWhile isNameRest)).map
        (Token.name (String.ofList (c :: text.takeWhile isNameRest)) :: ·) := by
  rw [tokenize, unsigned]
  simp only [start, if_true]

theorem spell_of_tokenize {text : List Char} {tokens : List Token}
    (done : tokenize text = .ok tokens) :
    spell tokens = text ∧ ∀ token ∈ tokens, token.IsProper := by
  fun_induction tokenize text generalizing tokens with
  | case1 =>
      cases done
      simp
  | case2 c rest sign found inductionHypothesis =>
      obtain ⟨others, split, rfl⟩ := map_eq_ok_iff.mp done
      obtain ⟨spelled, proper⟩ := inductionHypothesis split
      obtain ⟨sign, signProper⟩ := Token.spelling_of_sign? found
      exact ⟨by simp [sign, spelled], by simpa using ⟨signProper, proper⟩⟩
  | case3 c rest unsigned start inductionHypothesis =>
      obtain ⟨others, split, rfl⟩ := map_eq_ok_iff.mp done
      obtain ⟨spelled, proper⟩ := inductionHypothesis split
      refine ⟨by simp [Token.spelling, spelled, List.takeWhile_append_dropWhile], ?_⟩
      have identifier : IsIdentifier (c :: rest.takeWhile isNameRest) :=
        ⟨c, _, rfl, start, List.all_eq_true.mp List.all_takeWhile⟩
      simpa [Token.IsProper] using ⟨identifier, proper⟩
  | case4 => cases done

theorem isNameRest_of_sign? {c : Char} {sign : Token} (found : Token.sign? c = some sign) :
    isNameRest c = false := by
  have listed := Token.mem_of_sign? found
  simp only [List.mem_cons, Prod.mk.injEq, List.not_mem_nil, or_false] at listed
  rcases listed with ⟨rfl, _⟩ | ⟨rfl, _⟩ | ⟨rfl, _⟩ | ⟨rfl, _⟩ <;> decide

theorem sign?_of_isNameStart {c : Char} (start : isNameStart c = true) : Token.sign? c = none := by
  cases found : Token.sign? c with
  | none => rfl
  | some sign =>
      have inside : isNameRest c = false := isNameRest_of_sign? found
      simp [isNameRest, start] at inside

/-- The tokens are found in the text, whatever comes behind it but more of a name. -/
def Tokenizes (text : List Char) (tokens : List Token) : Prop :=
  ∀ behind : List Char, (∀ c ∈ behind.head?, isNameRest c = false) →
    tokenize (text ++ behind) = (tokenize behind).map (tokens ++ ·)

variable {text behind : List Char} {tokens others : List Token}

theorem Tokenizes.tokenize_eq (found : Tokenizes text tokens) : tokenize text = .ok tokens := by
  simpa [Selector.tokenize, Except.map] using found [] (by simp)

theorem tokenizes_nil : Tokenizes [] [] := by
  intro behind _
  cases outcome : tokenize behind <;> simp [Except.map, outcome]

/-- A sign ends a name, so what stands around it is split on its own. -/
theorem Tokenizes.append_sign {c : Char} {sign : Token} (found : Tokenizes text tokens)
    (signed : Token.sign? c = some sign) (foundToo : Tokenizes behind others) :
    Tokenizes (text ++ c :: behind) (tokens ++ sign :: others) := by
  intro more ends
  have here := found (c :: (behind ++ more)) (by simpa using isNameRest_of_sign? signed)
  rw [List.append_assoc, List.cons_append, here, tokenize_sign signed, foundToo more ends]
  cases outcome : tokenize more <;> simp [Except.map]

theorem tokenizes_name {name : String} (identifier : IsIdentifier name.toList) :
    Tokenizes name.toList [.name name] := by
  intro behind ends
  obtain ⟨c, rest, spelled, start, inside⟩ := identifier
  have stops : behind.takeWhile isNameRest = [] ∧ behind.dropWhile isNameRest = behind := by
    cases behind with
    | nil => exact ⟨rfl, rfl⟩
    | cons d more =>
        have outside : isNameRest d = false := ends d rfl
        simp [outside]
  rw [spelled, List.cons_append, tokenize_name (sign?_of_isNameStart start) start,
    List.takeWhile_append_of_pos inside, List.dropWhile_append_of_pos inside, stops.1, stops.2,
    List.append_nil, ← spelled, String.ofList_toList]
  rfl

end EntityResolver.Selector
