import LeafWeb.Lib.Procedure
import Mathlib.Data.Int.Notation

namespace LeafWeb.Store

open Lib.Procedure

abbrev Bytes := List UInt8

/-- Instants in microseconds, the resolution of the timestamps the store keeps. -/
abbrev Time := ℤ

inductive StoreError
  | keyError (key : String)
  | valueError (message : String)
  | typeError (message : String)
  | runtimeError (message : String)
  | overflowError
  | checkoutParamError (message : String)
  | checkoutDenied (message : String)
  | drawingVanished (message : String)
  | immutableConflict (message : String)
  | backendFault
  | callbackError
  deriving DecidableEq

def anonymousHolder : String := "anonymous:unnamed-writer"

def pyRepr (s : String) : String :=
  let quote := if s.toList.contains '\'' && !s.toList.contains '"' then '"' else '\''
  let escape := fun c => if c = '\\' ∨ c = quote then ['\\', c] else [c]
  String.ofList (quote :: s.toList.flatMap escape ++ [quote])

def refuseOtherHolder (currentHolder : String) (holder : Option String) (action : String) :
    Except StoreError Unit :=
  match holder with
  | none => .ok ()
  | some name =>
    if name = anonymousHolder then
      .error (.checkoutDenied ("drawing is checked out by " ++ pyRepr currentHolder ++
        "; a writer that names no session may not " ++ action))
    else if currentHolder ≠ name then
      .error (.checkoutDenied ("drawing is checked out by " ++ pyRepr currentHolder ++ "; " ++
        pyRepr name ++ " may not " ++ action))
    else .ok ()

def refuseStaleFence (currentFence fence : Option ℤ) : Except StoreError Unit :=
  match fence, currentFence with
  | some claimed, some current =>
    if current ≠ claimed then
      .error (.checkoutDenied (s!"checkout fence {claimed} is stale " ++
        s!"(current generation {current}); re-acquire the checkout first"))
    else .ok ()
  | _, _ => .ok ()

def refuseUnlessOwner (currentHolder : String) (currentFence : Option ℤ)
    (holder : Option String) (fence : Option ℤ) (action : String) : Except StoreError Unit := do
  refuseOtherHolder currentHolder holder action
  refuseStaleFence currentFence fence

variable {action currentHolder : String} {currentFence fence : Option ℤ} {f g : ℤ}

lemma refuseUnlessOwner_action {holder : Option String} (action' : String)
    (h : refuseUnlessOwner currentHolder currentFence holder fence action = .ok ()) :
    refuseUnlessOwner currentHolder currentFence holder fence action' = .ok () := by
  obtain ⟨_, ho, hf⟩ := except_bind_ok h
  have ho' : refuseOtherHolder currentHolder holder action' = .ok () := by
    unfold refuseOtherHolder at ho ⊢
    cases holder with
    | none => rfl
    | some name =>
      by_cases ha : name = anonymousHolder
      · simp [ha] at ho
      by_cases hn : currentHolder = name
      · simp [ha, hn]
      · simp [ha, hn] at ho
  rw [refuseUnlessOwner, ho']
  exact hf

lemma refuseStaleFence_ok (h : refuseStaleFence (some g) (some f) = .ok ()) : f = g := by
  simp only [refuseStaleFence] at h
  split at h
  · cases h
  next hne =>
    exact (not_not.mp hne).symm

end LeafWeb.Store
