import SqlCompose.Phrase

/-! What the calls made on a phrase emit, told from the calls alone: fragments in their order, each
behind what stands before it, and the fault that stops them. A history has its latest call first. -/
namespace SqlCompose.Phrase

structure Emission where
  joint : String
  text : String
  given : Bool

def Emission.joined (emissions : List Emission) : String :=
  String.join (emissions.map fun emission => emission.joint ++ emission.text)

namespace Call

def lead? : Call → Option (Option String)
  | .setLead text => some text
  | _ => none

def trail? : Call → Option (Option String)
  | .setTrail text => some text
  | _ => none

def separator? : Call → Option (Option String)
  | .setSeparator text => some text
  | _ => none

def fallback? : Call → Option (Option String)
  | .setFallback text => some text
  | _ => none

end Call

/-- A setting is what the last call that changes it made of it; a new phrase begins with another. -/
def setting (changed? : Call → Option (Option String)) (initial : Option String)
    (history : List Call) : Option String :=
  (history.findSome? changed?).getD initial

def leadOf (history : List Call) : Option String := setting Call.lead? (some "") history

def trailOf (history : List Call) : Option String := setting Call.trail? (some "") history

def separatorOf (history : List Call) : Option String := setting Call.separator? none history

def fallbackOf (history : List Call) : Option String := setting Call.fallback? none history

/-- What a history has come to since the last reset, and the local lead that is still to be used. -/
structure Account where
  emissions : List Emission := []
  pending : Option String := none
  fault : Option Error := none

namespace Account

def text (account : Account) : String := Emission.joined account.emissions

def isEmpty (account : Account) : Bool := account.emissions.all fun emission => !emission.given

/-- What stands before the next fragment: the pending lead, or nothing before the first one, or the
separator, which may be missing. -/
def joint? (account : Account) (separator : Option String) : Option String :=
  match account.pending, account.emissions with
  | some lead, _ => some lead
  | none, [] => some ""
  | none, _ :: _ => separator

/-- One more fragment, if there is no fault yet; the fault, if it has nothing to stand behind. -/
def emit (account : Account) (history : List Call) (text : String) (given : Bool) : Account :=
  match account.joint? (separatorOf history) with
  | some joint => { emissions := account.emissions ++ [⟨joint, text, given⟩] }
  | none =>
    { account with
      fault := some (.misuse (.noSeparator (Text.trimmed ((leadOf history).getD "")) text
        account.text)) }

def append (account : Account) (history : List Call) (fragment : String) : Account :=
  match account.fault, fragment.isEmpty, fallbackOf history with
  | some _, _, _ => account
  | none, false, _ => account.emit history fragment true
  | none, true, some fallback => account.emit history fallback false
  | none, true, none => account

def ofHistory : List Call → Account
  | [] => {}
  | .append fragment :: before => (ofHistory before).append before fragment
  | .appendAll fragments :: before =>
    fragments.foldl (fun account fragment => account.append before fragment) (ofHistory before)
  | .setLocalLead text :: before => { ofHistory before with pending := text }
  | .reset :: before => { pending := (ofHistory before).pending }
  | _ :: before => ofHistory before

def render (account : Account) (lead trail : Option String) : Except Error String :=
  match account.fault, account.isEmpty, lead, trail with
  | some error, _, _, _ => .error error
  | none, true, _, _ => .ok ""
  | none, false, none, _ => .error (.misuse (.noLead account.text))
  | none, false, some _, none => .error (.misuse (.noTrail account.text))
  | none, false, some lead, some trail => .ok (lead ++ account.text ++ trail)

end Account

end SqlCompose.Phrase
