import Mathlib.Data.List.Forall2
import NativeBridge.Bridge
import NativeBridge.Proofs.Call.Runs
import NativeBridge.Proofs.Class.Binding
import NativeBridge.Proofs.Registry.Growth

namespace NativeBridge

/-- Characters that are equal, or a capital from `A` to `Z` and its small
letter. -/
inductive SameLetter : Char → Char → Prop
  | refl (c : Char) : SameLetter c c
  | lowered {capital small : Char} : capital.isUpper = true →
    small.toNat = capital.toNat + 32 → SameLetter capital small
  | raised {capital small : Char} : capital.isUpper = true →
    small.toNat = capital.toNat + 32 → SameLetter small capital

/-- Texts that are equal letter for letter, save for the case of ASCII
letters. -/
def EqualIgnoringCase (first second : String) : Prop :=
  List.Forall₂ SameLetter first.toList second.toList

private theorem isUpper_iff {c : Char} : c.isUpper = true ↔ 65 ≤ c.toNat ∧ c.toNat ≤ 90 := by
  change decide (c.val ≥ 'A'.val ∧ c.val ≤ 'Z'.val) = true ↔ _
  simp only [decide_eq_true_eq, ge_iff_le, UInt32.le_iff_toNat_le]
  exact Iff.rfl

/-- The small letter of a capital stands 32 places behind it. Every other
character is left alone, capitals outside ASCII among them. -/
theorem toNat_toLower {c : Char} :
    c.toLower.toNat = if c.isUpper = true then c.toNat + 32 else c.toNat := by
  unfold Char.toLower
  by_cases h : c.isUpper = true
  · have hrange := isUpper_iff.1 h
    have hcond : c.val ≥ 'A'.val ∧ c.val ≤ 'Z'.val := of_decide_eq_true h
    rw [dif_pos hcond, if_pos h]
    simp only [Char.toNat, UInt32.toNat_add] at hrange ⊢
    change (c.val.toNat + 32) % 4294967296 = c.val.toNat + 32
    omega
  · have hcond : ¬ (c.val ≥ 'A'.val ∧ c.val ≤ 'Z'.val) := fun hcond => h (decide_eq_true hcond)
    rw [dif_neg hcond, if_neg h]

private theorem toLower_capital {capital small : Char} (hupper : capital.isUpper = true)
    (hsmall : small.toNat = capital.toNat + 32) : capital.toLower = small.toLower := by
  have hrange := isUpper_iff.1 hupper
  have hlower : small.isUpper ≠ true := fun h => by
    have := isUpper_iff.1 h
    omega
  rw [← Char.toNat_inj, toNat_toLower, toNat_toLower, if_pos hupper, if_neg hlower, hsmall]

/-- Folding brings together exactly the letters that are the same. A small
letter is never folded into another character. -/
theorem sameLetter_iff {first second : Char} :
    SameLetter first second ↔ first.toLower = second.toLower := by
  constructor
  · intro h
    cases h with
    | refl => rfl
    | lowered hupper hsmall => exact toLower_capital hupper hsmall
    | raised hupper hsmall => exact (toLower_capital hupper hsmall).symm
  · intro h
    rw [← Char.toNat_inj, toNat_toLower, toNat_toLower] at h
    by_cases hfirst : first.isUpper = true <;> by_cases hsecond : second.isUpper = true <;>
      simp only [hfirst, hsecond, ↓reduceIte] at h
    · obtain rfl : first = second := Char.toNat_inj.1 (by omega)
      exact .refl first
    · exact .lowered hfirst h.symm
    · exact .raised hsecond h
    · obtain rfl : first = second := Char.toNat_inj.1 h
      exact .refl first

/-- Names are the same when they agree after every character of them is folded.
Folding goes character by character, so it keeps lengths and places. -/
theorem sameName_iff_toList {first second : String} : Text.SameName first second ↔
    first.toList.map Char.toLower = second.toList.map Char.toLower := by
  rw [Text.SameName, ← String.toList_inj, Text.toList_foldCase, Text.toList_foldCase]

/-- Being the same name is being equal letter for letter, save for the case of
ASCII letters. The right side does not mention folding. -/
theorem sameName_iff {first second : String} :
    Text.SameName first second ↔ EqualIgnoringCase first second := by
  have hletter : SameLetter = fun a b => a.toLower = b.toLower :=
    funext fun _ => funext fun _ => propext sameLetter_iff
  rw [sameName_iff_toList, EqualIgnoringCase, hletter, ← List.forall₂_eq_eq_eq,
    List.forall₂_map_left_iff, List.forall₂_map_right_iff]

/-- Spellings of a class that are equal save for the case of ASCII letters. The
second one may have a backslash in front if the first one has none. -/
def SameClassSpelling (first second : String) : Prop :=
  EqualIgnoringCase first second ∨
    (first.toList.head? ≠ some ClassName.separator ∧
      EqualIgnoringCase (String.singleton ClassName.separator ++ first) second)

private theorem toLower_eq_separator_iff {c : Char} :
    c.toLower = ClassName.separator ↔ c = ClassName.separator := by
  have hsame : ClassName.separator.toLower = ClassName.separator := by decide
  constructor
  · intro h
    rw [← hsame, ← sameLetter_iff] at h
    cases h with
    | refl => rfl
    | lowered hupper hsmall =>
      have := isUpper_iff.1 hupper
      have hcode : ClassName.separator.toNat = 92 := rfl
      omega
    | raised hupper _ => exact absurd hupper (by decide)
  · rintro rfl
    exact hsame

/-- Dropping takes away one backslash in front and no more, so a second one
stays and belongs to the name. -/
theorem toList_dropLeadingSeparator (name : String) :
    (Registry.dropLeadingSeparator name).toList =
      if name.toList.head? = some ClassName.separator then name.toList.tail else name.toList := by
  unfold Registry.dropLeadingSeparator
  split
  · rename_i h
    simp [h]
  · rename_i c rest h
    by_cases hc : c = ClassName.separator <;> simp [h, hc]

private theorem foldCase_dropLeadingSeparator (name : String) :
    Text.foldCase (Registry.dropLeadingSeparator name) =
      Registry.dropLeadingSeparator (Text.foldCase name) := by
  rw [← String.toList_inj, Text.toList_foldCase, toList_dropLeadingSeparator,
    toList_dropLeadingSeparator, Text.toList_foldCase]
  cases name.toList with
  | nil => rfl
  | cons c rest =>
    by_cases hc : c = ClassName.separator
    · simp [hc, toLower_eq_separator_iff.2]
    · simp [hc, toLower_eq_separator_iff]

private theorem dropLeadingSeparator_append (name : String) :
    Registry.dropLeadingSeparator (String.singleton ClassName.separator ++ name) = name := by
  rw [← String.toList_inj, toList_dropLeadingSeparator]
  simp

/-- A name without a backslash in front is looked up as it is. -/
theorem dropLeadingSeparator_of_head? {name : String}
    (h : name.toList.head? ≠ some ClassName.separator) :
    Registry.dropLeadingSeparator name = name := by
  rw [← String.toList_inj, toList_dropLeadingSeparator, if_neg h]

private theorem SameClassSpelling.sameName {first second : String}
    (h : SameClassSpelling first second) :
    Text.SameName (Registry.dropLeadingSeparator first)
      (Registry.dropLeadingSeparator second) := by
  rcases h with hequal | ⟨hnone, hequal⟩
  · have hname : Text.SameName first second := sameName_iff.2 hequal
    rw [Text.SameName, foldCase_dropLeadingSeparator, hname, ← foldCase_dropLeadingSeparator]
  · have hname : Text.SameName (String.singleton ClassName.separator ++ first) second :=
      sameName_iff.2 hequal
    rw [Text.SameName, foldCase_dropLeadingSeparator second, ← hname,
      ← foldCase_dropLeadingSeparator, dropLeadingSeparator_append,
      dropLeadingSeparator_of_head? hnone]

/-- Different texts with the same digest. -/
def Digest.Collide (first second : String) : Prop :=
  first ≠ second ∧ ofText first = ofText second

/-- Names stand for one class when they differ at most in the case of ASCII
letters, or when their digests collide. Collisions are possible, so they are
named and not assumed away. -/
theorem Identity.ofClass_eq_iff {first second : String} :
    ofClass first = ofClass second ↔ Text.SameName first second ∨
      Digest.Collide (Text.foldCase first) (Text.foldCase second) := by
  constructor
  · intro h
    by_cases hname : Text.SameName first second
    · exact .inl hname
    · refine .inr ⟨hname, ?_⟩
      simpa [ofClass] using h
  · rintro (hname | ⟨-, hdigest⟩)
    · rw [ofClass, ofClass, hname]
    · rw [ofClass, ofClass, hdigest]

variable {σ ω : Type}

namespace Registry

/-- A class is found under all its spellings or under none, collisions of
digests included. -/
theorem get?_spelling (registry : Registry σ ω) {first second : String}
    (h : SameClassSpelling first second) : registry.get? first = registry.get? second := by
  have hname : Text.foldCase (dropLeadingSeparator first) =
      Text.foldCase (dropLeadingSeparator second) := h.sameName
  rw [get?, get?, Identity.ofClass, Identity.ofClass, hname]

/-- A class that is found has the name it was looked up by, unless the digest
mistook one for the other. -/
theorem sameName_of_get? {registry : Registry σ ω} {name : String} {cls : NativeClass σ ω}
    (h : registry.get? name = some cls) :
    Text.SameName cls.name.text (dropLeadingSeparator name) ∨
      Digest.Collide (Text.foldCase cls.name.text)
        (Text.foldCase (dropLeadingSeparator name)) := by
  have hidentity : Identity.ofClass cls.name.text =
      Identity.ofClass (dropLeadingSeparator name) := identity_of_ofIdentity? h
  exact Identity.ofClass_eq_iff.1 hidentity

end Registry

namespace NativeClass

variable {cls : NativeClass σ ω} {first second : String}

private theorem sameName_right_iff (h : Text.SameName first second) (name : String) :
    Text.SameName name first ↔ Text.SameName name second :=
  ⟨fun hname => hname.trans h, fun hname => hname.trans h.symm⟩

private theorem method?_spelling (cls : NativeClass σ ω) (h : Text.SameName first second) :
    cls.method? first = cls.method? second := by
  simp only [method?, MethodTable.find?, sameName_right_iff h]

private theorem gapFor?_spelling (cls : NativeClass σ ω) (h : Text.SameName first second) :
    cls.gapFor? first = cls.gapFor? second := by
  simp only [gapFor?, dependencies, Capability.requires, sameName_right_iff h]

/-- What a name is bound to does not depend on how it is spelled, save that a
name without a method is given back. -/
theorem bind_spelling (cls : NativeClass σ ω) (h : Text.SameName first second) :
    (∃ gap : ContractGap, ∀ name ∈ [first, second], cls.bind name =
      .error (.contractViolation cls.name.text gap.capability.hostName gap.missing)) ∨
    (∀ name ∈ [first, second], cls.bind name = .error (.unknownMethod cls.name.text name)) ∨
    ∃ found, ∀ name ∈ [first, second], cls.bind name = .ok found := by
  simp only [bind, List.forall_mem_cons, gapFor?_spelling cls h, method?_spelling cls h]
  cases cls.gapFor? second with
  | some gap => exact Or.inl ⟨gap, by simp⟩
  | none =>
    cases cls.method? second with
    | none => exact Or.inr (Or.inl (by simp))
    | some found => exact Or.inr (Or.inr ⟨found, by simp⟩)

/-- A name that is bound to a method is a spelling of the method's name. No
digest comes in here, because methods are found by comparing names. -/
theorem sameName_of_bind {found : Method σ ω} (h : cls.bind first = .ok found) :
    Text.SameName found.name first := by
  obtain ⟨gap, -, hbind⟩ | ⟨-, -, hbind⟩ | ⟨other, -, hmethod, hbind⟩ := cls.bind_cases first
  · rw [hbind] at h
    cases h
  · rw [hbind] at h
    cases h
  · rw [hbind] at h
    cases h
    exact (cls.distinct.find?_eq_some_iff.1 hmethod).2

/-- A name that runs into a violated contract is a spelling of a name that some
contract asks for. -/
theorem Violates.exists_sameName {called : String} (h : cls.Violates called) :
    ∃ c : Capability, ∃ required ∈ c.requiredMethods, Text.SameName required.name called := by
  obtain ⟨gap, hgap⟩ := Option.ne_none_iff_exists'.1 (violates_iff_gapFor?.1 h)
  have hdepends : (cls.dependencies called).has gap.capability = true := by
    simpa using List.find?_some hgap
  obtain ⟨taker, htaker, -⟩ := CapabilitySet.has_unionOf_iff.1 hdepends
  obtain ⟨required, hrequired, hname⟩ := List.any_eq_true.1 (List.mem_filter.1 htaker).2
  exact ⟨taker, required, hrequired, of_decide_eq_true hname⟩

end NativeClass

namespace Host

variable [NativeState σ]

/-- The host after a call of a method that a class has not. The report gives the
name as it was spelled. -/
def reportUnknown (host : Host σ ω) (className method : String) : Host σ ω :=
  host.report
    ⟨.exception, className, method, none, (CallError.unknownMethod className method).message⟩

/-- Two spellings of a method are called alike, also with regard to the host
that is left, or both are unknown and each is reported as it was spelled. -/
theorem invoke_spelling (host : Host σ ω) (cls : NativeClass σ ω) {first second : String}
    (h : Text.SameName first second) (frame : Frame) :
    host.invoke cls first frame = host.invoke cls second frame ∨
    ∀ name ∈ [first, second], host.invoke cls name frame =
      (.error (.unknownMethod cls.name.text name), host.reportUnknown cls.name.text name) := by
  obtain ⟨gap, hbind⟩ | hbind | ⟨found, hbind⟩ := cls.bind_spelling h
  · refine Or.inl ?_
    simp only [invoke, hbind first (by simp), hbind second (by simp), CallError.isRecoverable,
      Bool.false_eq_true, ↓reduceIte]
  · refine Or.inr fun name hname => ?_
    simp only [invoke, hbind name hname, CallError.isRecoverable, ↓reduceIte, reportUnknown]
  · refine Or.inl ?_
    rw [invoke_of_ok (hbind first (by simp)), invoke_of_ok (hbind second (by simp))]

end Host

namespace Bridge

/-- The ends of two calls from the same bridge, under two spellings of a class
and two of a method. They differ at most in the name that is given back as
unknown. -/
inductive EndsAlike (bridge : Bridge σ ω) (classNames methods : String × String) :
    Except BridgeError Value × Bridge σ ω → Except BridgeError Value × Bridge σ ω → Prop
  | same (ended : Except BridgeError Value × Bridge σ ω) :
    EndsAlike bridge classNames methods ended ended
  | unknownClass : EndsAlike bridge classNames methods
    (.error (.registration (.unknownClass classNames.1)), bridge)
    (.error (.registration (.unknownClass classNames.2)), bridge)
  | unknownMethod (className : String) : EndsAlike bridge classNames methods
    (.error (.call (.unknownMethod className methods.1)),
      { bridge with host := bridge.host.reportUnknown className methods.1 })
    (.error (.call (.unknownMethod className methods.2)),
      { bridge with host := bridge.host.reportUnknown className methods.2 })

section

variable [NativeState σ] {className : String}

private theorem call_of_get?_none {bridge : Bridge σ ω} (h : bridge.registry.get? className = none)
    (method : String) (receiver : Option RawReceiver) (arguments : List Value) :
    bridge.call className method receiver arguments =
      (.error (.registration (.unknownClass className)), bridge) := by
  simp only [call, Registry.get, h]

private theorem call_of_get?_some {bridge : Bridge σ ω} {cls : NativeClass σ ω}
    (h : bridge.registry.get? className = some cls) (method : String)
    (receiver : Option RawReceiver) (arguments : List Value) :
    bridge.call className method receiver arguments =
      ((bridge.host.invoke cls method ⟨receiver, arguments⟩).1.mapError .call,
        { bridge with host := (bridge.host.invoke cls method ⟨receiver, arguments⟩).2 }) := by
  simp only [call, Registry.get, h]

private theorem call_spelling (bridge : Bridge σ ω) {className' method method' : String}
    (hclass : SameClassSpelling className className') (hmethod : Text.SameName method method')
    (receiver : Option RawReceiver) (arguments : List Value) :
    bridge.EndsAlike (className, className') (method, method')
      (bridge.call className method receiver arguments)
      (bridge.call className' method' receiver arguments) := by
  have hget := bridge.registry.get?_spelling hclass
  cases hfound : bridge.registry.get? className' with
  | none =>
    rw [call_of_get?_none (hget.trans hfound), call_of_get?_none hfound]
    exact .unknownClass
  | some cls =>
    rw [call_of_get?_some (hget.trans hfound), call_of_get?_some hfound]
    obtain hinvoke | hunknown :=
      bridge.host.invoke_spelling cls hmethod ⟨receiver, arguments⟩
    · rw [hinvoke]
      exact .same _
    · rw [hunknown method (by simp), hunknown method' (by simp)]
      exact .unknownMethod cls.name.text

end

/-- A call finds nothing under a name that differs by more than the case of
ASCII letters from the name of what it finds. Two classes may be mistaken for
each other only if their digests collide. -/
structure FindsBySpelling (bridge : Bridge σ ω) : Prop where
  className : ∀ {name : String} {cls : NativeClass σ ω}, bridge.registry.get? name = some cls →
    EqualIgnoringCase cls.name.text (Registry.dropLeadingSeparator name) ∨
      Digest.Collide (Text.foldCase cls.name.text)
        (Text.foldCase (Registry.dropLeadingSeparator name))
  method : ∀ {cls : NativeClass σ ω} {called : String} {found : Method σ ω},
    cls.bind called = .ok found → EqualIgnoringCase found.name called
  contract : ∀ {cls : NativeClass σ ω} {called : String}, cls.Violates called →
    ∃ c : Capability, ∃ required ∈ c.requiredMethods, EqualIgnoringCase required.name called

/-- Every bridge finds classes, methods and contracts by their spelling,
whatever is installed in it and however it came about. -/
theorem findsBySpelling (bridge : Bridge σ ω) : bridge.FindsBySpelling where
  className h := by
    rw [← sameName_iff]
    exact Registry.sameName_of_get? h
  method h := sameName_iff.1 (NativeClass.sameName_of_bind h)
  contract h := by
    simp only [← sameName_iff]
    exact h.exists_sameName

/-- Calls under spellings that are equal save for the case of ASCII letters come
to the same end, and no call reaches anything by a spelling that differs in
another letter. -/
theorem call_ignores_case [NativeState σ] (bridge : Bridge σ ω) :
    (∀ (className className' method method' : String) (receiver : Option RawReceiver)
      (arguments : List Value), SameClassSpelling className className' →
      EqualIgnoringCase method method' →
      bridge.EndsAlike (className, className') (method, method')
        (bridge.call className method receiver arguments)
        (bridge.call className' method' receiver arguments)) ∧
    bridge.FindsBySpelling := by
  refine ⟨?_, findsBySpelling bridge⟩
  intro className className' method method' receiver arguments hclass hmethod
  exact call_spelling bridge hclass (sameName_iff.2 hmethod) receiver arguments

/-- A class and a method with a letter outside ASCII. -/
def gauge : NativeClass Sample Unit where
  name := .global "Größe"
  parent := none
  capabilities := .empty
  methods := [idle "prüfen" []]
  properties := []
  distinct := MethodTable.firstRepeat?_nil_eq_none_iff.1 rfl

def gaugeBridge : Bridge Sample Unit := ⟨⟨[gauge], false⟩, .new .standard ()⟩

/-- The case of `R` does not matter, that of `Ö` and `Ü` does: folding goes no
further than ASCII. -/
theorem call_ignores_case_gauge :
    SameClassSpelling "GRößE" "\\größe" ∧ EqualIgnoringCase "PRüFEN" "prüfen" ∧
    gaugeBridge.EndsAlike ("GRößE", "\\größe") ("PRüFEN", "prüfen")
      (gaugeBridge.call "GRößE" "PRüFEN" none []) (gaugeBridge.call "\\größe" "prüfen" none []) ∧
    (gaugeBridge.call "GRößE" "PRüFEN" none []).1 = .ok .null ∧
    (gaugeBridge.call "GRößE" "PRÜFEN" none []).1 =
      .error (.call (.unknownMethod "Größe" "PRÜFEN")) ∧
    (gaugeBridge.call "GRÖßE" "prüfen" none []).1 =
      .error (.registration (.unknownClass "GRÖßE")) := by
  have hclass : SameClassSpelling "GRößE" "\\größe" :=
    .inr ⟨by decide, sameName_iff.1 (by decide)⟩
  have hmethod : EqualIgnoringCase "PRüFEN" "prüfen" := sameName_iff.1 (by decide)
  exact ⟨hclass, hmethod,
    (call_ignores_case gaugeBridge).1 _ _ _ _ none [] hclass hmethod, rfl, rfl, rfl⟩

end Bridge

end NativeBridge
