/-!
# ASCII case

Names of classes and methods are compared without regard to the case of the letters `A` to `Z`.
No other letter is folded, so `É` and `é` stay different.
-/

namespace NativeBridge.Text

/-- The text with every ASCII capital replaced by its small letter. -/
def foldCase (text : String) : String :=
  String.ofList (text.toList.map Char.toLower)

/-- Two texts are the same name when they differ at most in the case of ASCII
letters. -/
def SameName (a b : String) : Prop :=
  foldCase a = foldCase b

instance (a b : String) : Decidable (SameName a b) :=
  inferInstanceAs (Decidable (foldCase a = foldCase b))

/-- Folding goes character by character. -/
theorem toList_foldCase (text : String) :
    (foldCase text).toList = text.toList.map Char.toLower := by
  simp [foldCase]

theorem SameName.refl (a : String) : SameName a a := rfl

theorem SameName.symm {a b : String} (h : SameName a b) : SameName b a := Eq.symm h

theorem SameName.trans {a b c : String} (hab : SameName a b) (hbc : SameName b c) :
    SameName a c := Eq.trans hab hbc

end NativeBridge.Text
