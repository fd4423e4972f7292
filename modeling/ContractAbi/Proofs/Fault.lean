import ContractAbi.Address
import ContractAbi.Interface.Param
import ContractAbi.Proofs.Session.Invariant

/-!
# Announced failures

An assembly is announced to fail in two ways only. Failures to read a value or to build a parameter
are of other kinds, and so are visible where they leave an assembly.

* `Fault.Announced`: the failures that an assembly may end with;
* `Value.unannounced_toWhole`, `Address.unannounced_ofWordValue`, `Value.unannounced_toItems` and
  `Param.unannounced_ofTypes`: failures that it may not end with.
-/

namespace ContractAbi

/-- The failures that assemblies are announced to end with: an address that is none, and a place
without a contract. -/
inductive Fault.Announced : Fault → Prop
  | invalidAddress (v) : Announced (.invalidAddress v)
  | noContract (address chain reason) : Announced (.noContract address chain reason)

def Fault.Unannounced (f : Fault) : Prop :=
  ¬f.Announced

theorem Fault.unannounced_malformed (cause : Malformed) : (malformed cause).Unannounced :=
  nofun

theorem Fault.unannounced_misfit (cause : Misfit) : (misfit cause).Unannounced :=
  nofun

theorem Fault.unannounced_infiniteWhole : infiniteWhole.Unannounced :=
  nofun

theorem Fault.unannounced_noFields (v : Value) (name : String) : (noFields v name).Unannounced :=
  nofun

/-! ## Reading values -/

theorem Value.unannounced_toWhole (v : Value) :
    Except.Meets (fun _ => True) Fault.Unannounced v.toWhole := by
  have htext : ∀ given s, Except.Meets (fun _ => True) Fault.Unannounced (wholeOfText given s) := by
    intro given s
    unfold wholeOfText
    split
    · exact .ok trivial
    · split <;> exact .error (Fault.unannounced_malformed _)
  cases v with
  | int n => exact .ok trivial
  | bool b => exact .ok trivial
  | text s => exact htext _ s
  | bytes bs =>
      rw [toWhole]
      cases asciiText? bs with
      | some s => exact htext _ s
      | none => exact .error (Fault.unannounced_malformed _)
  | float x =>
      cases x with
      | nan => exact .error (Fault.unannounced_malformed _)
      | infinite negative => exact .error Fault.unannounced_infiniteWhole
      | finite negative m e => exact .ok trivial
  | null => exact .error (Fault.unannounced_misfit _)
  | list items => exact .error (Fault.unannounced_misfit _)
  | object fields => exact .error (Fault.unannounced_misfit _)

theorem Address.unannounced_ofWordValue [AddressLibrary] (v : Value) :
    Except.Meets (fun _ => True) Fault.Unannounced (ofWordValue v) := by
  unfold ofWordValue Value.toBytes
  split
  · exact .ok trivial
  · exact .ok trivial
  · unfold Value.bytesOfText
    split
    · exact .ok trivial
    · exact .error (Fault.unannounced_malformed _)
  · exact .error (Fault.unannounced_noFields _ _)

theorem Value.unannounced_toItems (v : Value) :
    Except.Meets (fun _ => True) Fault.Unannounced v.toItems := by
  unfold toItems
  split
  · exact .ok trivial
  · exact .ok trivial
  · exact .ok trivial
  · exact .ok trivial
  · exact .error (Fault.unannounced_misfit _)

/-! ## Building parameters -/

namespace Param

theorem unannounced_splitChars (cs : List Char) :
    Except.Meets (fun _ => True) Fault.Unannounced (TypeText.splitChars cs) := by
  unfold TypeText.splitChars
  dsimp only
  split
  · exact .ok trivial
  · split
    · exact .error (Fault.unannounced_malformed _)
    · split
      · exact .error (Fault.unannounced_malformed _)
      · exact .ok trivial

theorem unannounced_ofTypeNested (fuel : Nat) (name : Value) (s : String) (indexed : Value) :
    Except.Meets (fun _ => True) Fault.Unannounced (ofTypeNested fuel name s indexed) := by
  induction fuel generalizing name s indexed with
  | zero =>
      unfold ofTypeNested
      dsimp only
      split
      · exact .error (Fault.unannounced_malformed _)
      · exact .ok trivial
  | succ fuel ih =>
      unfold ofTypeNested
      dsimp only
      split
      · cases TypeText.closing? (TypeText.canonicalChars s.toList) 0 with
        | none => exact .error (Fault.unannounced_malformed _)
        | some stop =>
            dsimp only
            refine (unannounced_splitChars _).bind fun types _ => ?_
            refine (Except.Meets.mapM (Q := fun _ => True) fun t _ =>
              ih (.text "") (String.ofList t) .null).bind fun _ _ => ?_
            exact .ok trivial
      · exact .ok trivial

theorem unannounced_ofTypes (word : String) (types : List String) :
    Except.Meets (fun _ => True) Fault.Unannounced (ofTypes word types) :=
  (Except.Meets.mapM (Q := fun _ => True) fun (t, i) _ =>
    unannounced_ofTypeNested (t.length + 1) (.text (word ++ Integer.render i)) t .null).mono
      (fun _ _ => trivial) fun _ h => h

end Param

end ContractAbi
