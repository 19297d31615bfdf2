import SqlCompose.Rendering

/-! What the calls of a history offer to a clause, in their order, and what comes of it: the texts
of the clause, its parameters, and the misuse that spoils it. -/
namespace SqlCompose

structure Link where
  joint : String
  text : String
  deriving DecidableEq

def Link.joined : List Link → String
  | [] => ""
  | first :: rest => first.text ++ String.join (rest.map fun link => link.joint ++ link.text)

/-- What a call offers to a clause: a fragment, or the fault that kept it from coming about. A
clause without joints takes one fragment. -/
structure Offer where
  joint : Option String
  content : Except Error Fragment

namespace Offer

def plain (joint : Option String) (text : String) : Offer := ⟨joint, .ok ⟨text, []⟩⟩

def link? (offer : Offer) : Option Link :=
  match offer.content with
  | .ok fragment =>
    if fragment.text.isEmpty then none else some ⟨offer.joint.getD "", fragment.text⟩
  | .error _ => none

def links (offers : List Offer) : List Link := offers.filterMap link?

/-- What an offer adds to the parameters of a clause, with or without text. -/
def params (offer : Offer) : List Value :=
  match offer.content with
  | .ok fragment => fragment.params
  | .error _ => []

/-- The misuse in an offer to a clause that has some links: a fault, or a further text where there
is no joint. -/
def misuse? (clause : String) (links : List Link) (offer : Offer) : Option Error :=
  match offer.content with
  | .error error => some error
  | .ok fragment =>
    if offer.joint.isNone && !links.isEmpty && !fragment.text.isEmpty then
      some (.misuse (.noSeparator clause fragment.text (Link.joined links)))
    else none

def firstMisuse? (clause : String) : List Link → List Offer → Option Error
  | _, [] => none
  | links, offer :: offers =>
    match offer.misuse? clause links with
    | some error => some error
    | none => firstMisuse? clause (links ++ offer.link?.toList) offers

def makers {Call : Type} (offers : Call → List Offer) (calls : List Call) : List Call :=
  calls.filter fun made => !(offers made).isEmpty

end Offer

/-- A clause as a history leaves it: what stands before and behind its text, and all that was
offered to it. -/
structure Ledger where
  lead : String
  trail : String := ""
  offers : List Offer

namespace Ledger

def misuse? (ledger : Ledger) : Option Error :=
  Offer.firstMisuse? (Text.trimmed ledger.lead) [] ledger.offers

def text? (ledger : Ledger) : Option String :=
  if (Offer.links ledger.offers).isEmpty then none
  else some (ledger.lead ++ Link.joined (Offer.links ledger.offers) ++ ledger.trail)

def params (ledger : Ledger) : List Value := ledger.offers.flatMap Offer.params

/-- A clause of a statement that builds, by its separator. What it was offered came about; its texts
stand behind its separator, unless each brings its own joint; without either there is one text. -/
structure Orderly (ledger : Ledger) (separator? : Option (Option String)) : Prop where
  content : ∀ offer ∈ ledger.offers, ∃ fragment, offer.content = .ok fragment
  joined : ∀ joint, separator? = some (some joint) → Link.joined (Offer.links ledger.offers) =
    joint.intercalate ((Offer.links ledger.offers).map Link.text)
  single : separator? = some none → (Offer.links ledger.offers).length ≤ 1

def layout (ledgers : List Ledger) : String := " ".intercalate (ledgers.filterMap text?)

end Ledger

end SqlCompose
