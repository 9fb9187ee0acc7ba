import CursorContext.Session
import Mathlib.Data.List.Induction

/-!
Sessions as histories of single documents. The steps of a session go through each other in any way, but
the text of a document follows from the steps that open, change or close that one document: it is the
last text that one of them set after the last close. What is asked changes nothing, and what is
answered depends on no other document.
-/
namespace CursorContext.Session

namespace Step

/-- The document that a step opens, changes or closes. -/
def edited? : Step → Option String
  | openDocument address _ | change address _ | close address => some address
  | signature .. | command .. => none

def isClose : Step → Bool
  | close _ => true
  | _ => false

/-- The texts that a step sets, one after the other. -/
def texts : Step → List Document
  | openDocument _ text => [text]
  | change _ texts => texts
  | close _ | signature .. | command .. => []

/-- The document that a step asks about. -/
def asked? : Step → Option String
  | signature address .. => some address
  | command arguments =>
    match unpack arguments with
    | [address, _, _] => address.toAddress.toOption.join
    | _ => none
  | openDocument .. | change .. | close .. => none

/-- What a step makes of the text of the document that it edits. -/
def newText (step : Step) (text : Option Document) : Option Document :=
  if step.isClose then none else some (step.texts.getLast?.getD (text.getD []))

end Step

/-! ### The text of a document -/

/-- The steps that edit a document, in their order. -/
def editsOf (address : String) (steps : List Step) : List Step :=
  steps.filter (·.edited? == some address)

/-- The edits after the last close. -/
def sinceClosed (edits : List Step) : List Step := (edits.reverse.takeWhile (!·.isClose)).reverse

/-- The last text set after the last close. A document that was only changed to nothing is empty, and
without any edit there is none. -/
def lastText? (edits : List Step) : Option Document :=
  if (sinceClosed edits).isEmpty then none
  else some (((sinceClosed edits).flatMap (·.texts)).getLast?.getD [])

/-- The documents after a sequence of steps. -/
def documentsAfter (documents : Documents) (steps : List Step) : Documents :=
  steps.foldl update documents

theorem documentsAfter_append (documents : Documents) (steps more : List Step) :
    documentsAfter documents (steps ++ more) =
      documentsAfter (documentsAfter documents steps) more :=
  List.foldl_append

theorem sinceClosed_append (edits : List Step) (step : Step) :
    sinceClosed (edits ++ [step]) = if step.isClose then [] else sinceClosed edits ++ [step] := by
  rw [sinceClosed, List.reverse_append, List.reverse_singleton, List.singleton_append]
  cases closes : step.isClose with
  | true => simp [closes]
  | false => simp [closes, sinceClosed]

theorem getD_lastText? (edits : List Step) :
    (lastText? edits).getD [] = ((sinceClosed edits).flatMap (·.texts)).getLast?.getD [] := by
  unfold lastText?
  split
  next none => simp [List.isEmpty_iff.mp none]
  next => rfl

/-- One more edit sets the text, keeps it or takes it away. -/
theorem lastText?_append (edits : List Step) (step : Step) :
    lastText? (edits ++ [step]) = step.newText (lastText? edits) := by
  rw [Step.newText, getD_lastText?, lastText?, sinceClosed_append]
  cases step.isClose with
  | true => rfl
  | false => simp [List.flatMap_append, List.getLast?_append]

/-- A step changes the document that it edits and no other one. -/
theorem getElem?_update (documents : Documents) (step : Step) (address : String) :
    (update documents step)[address]? =
      if step.edited? = some address then step.newText documents[address]?
      else documents[address]? := by
  cases step with
  | openDocument other text =>
    by_cases same : other = address
    · simp [update, Step.edited?, Step.newText, Step.isClose, Step.texts, same]
    · simp [update, Step.edited?, same, Std.TreeMap.getElem?_insert]
  | change other texts =>
    by_cases same : other = address
    · simp [update, Step.edited?, Step.newText, Step.isClose, Step.texts, same]
    · simp [update, Step.edited?, same, Std.TreeMap.getElem?_insert]
  | close other =>
    by_cases same : other = address
    · simp [update, Step.edited?, Step.newText, Step.isClose, same]
    · simp [update, Step.edited?, same, Std.TreeMap.getElem?_erase]
  | signature => rfl
  | command => rfl

/-- The text of a document follows from its own edits. -/
theorem getElem?_documentsAfter (steps : List Step) (address : String) :
    (documentsAfter {} steps)[address]? = lastText? (editsOf address steps) := by
  induction steps using List.reverseRecOn with
  | nil => rfl
  | append_singleton steps step ih =>
    have added : documentsAfter {} (steps ++ [step]) = update (documentsAfter {} steps) step :=
      documentsAfter_append {} steps [step]
    rw [added, getElem?_update, ih, editsOf, editsOf, List.filter_append]
    by_cases edits : step.edited? = some address
    · simp [edits, lastText?_append]
    · simp [edits]

/-! ### Questions -/

/-- A step that edits nothing leaves all documents as they are, whether it is answered or refused. -/
theorem update_question (documents : Documents) {question : Step} (asks : question.edited? = none) :
    update documents question = documents := by
  cases question with
  | openDocument | change | close => cases asks
  | signature | command => rfl

theorem contextAt_congr {documents others : Documents} {address : String}
    (same : documents[address]? = others[address]?) (line character : Int) :
    contextAt documents address line character = contextAt others address line character := by
  rw [contextAt, contextAt, same]

theorem command_congr {documents others : Documents} {arguments : List Value}
    (same : ∀ address, (Step.command arguments).asked? = some address →
      documents[address]? = others[address]?) :
    command documents arguments = command others arguments := by
  rw [command, command]
  simp only [Step.asked?] at same
  split
  next address line character unpacked =>
    rw [unpacked] at same
    cases line.toInteger with
    | error => rfl
    | ok line =>
      cases character.toInteger with
      | error => rfl
      | ok character =>
        cases found : address.toAddress with
        | error => rfl
        | ok place =>
          cases place with
          | none => rfl
          | some name =>
            have asked : address.toAddress.toOption.join = some name := by
              rw [found]
              rfl
            exact contextAt_congr (same name asked) line character
  next => rfl

/-- An answer depends on the document that is asked about and on no other one. -/
theorem answer_congr (exchange : Exchange) {documents others : Documents} {step : Step}
    (same : ∀ address, step.asked? = some address → documents[address]? = others[address]?) :
    answer exchange documents step = answer exchange others step := by
  cases step with
  | openDocument | change | close => rfl
  | signature address line character =>
    simp only [answer, signature, contextAt_congr (same address rfl)]
  | command arguments =>
    rw [answer, answer, command_congr same]

/-- Each step is answered from the documents before it. -/
theorem getElem?_run (exchange : Exchange) (documents : Documents) (steps : List Step) (i : Nat) :
    (run exchange documents steps)[i]? = steps[i]?.map fun step =>
      (answer exchange (documentsAfter documents (steps.take i)) step,
        documentsAfter documents (steps.take (i + 1))) := by
  induction steps generalizing documents i with
  | nil => rfl
  | cons step rest ih =>
    cases i with
    | zero => rfl
    | succ i => exact ih (update documents step) i

/-! ### Whole sessions -/

/-- In every session, however the steps for different documents go through each other: a document has
the last text that was set since it was last closed, and this follows from its own edits alone; a
step is answered from the documents before it; a question, answered or refused, may as well not have
been asked, as far as documents go; and the answer to a question is the same in any two sessions with
the same earlier edits of the document asked about, whatever is done to others and in which order.
All this holds whatever numbers the exchange takes. -/
theorem documents_follow_edits (exchange : Exchange) :
    (∀ steps address, (documentsAfter {} steps)[address]? = lastText? (editsOf address steps)) ∧
    (∀ steps i, (run exchange {} steps)[i]? = steps[i]?.map fun step =>
      (answer exchange (documentsAfter {} (steps.take i)) step,
        documentsAfter {} (steps.take (i + 1)))) ∧
    (∀ before question after, question.edited? = none →
      documentsAfter {} (before ++ question :: after) = documentsAfter {} (before ++ after)) ∧
    (∀ question before after before' after',
      (∀ address, question.asked? = some address → editsOf address before = editsOf address before') →
      ((run exchange {} (before ++ question :: after))[before.length]?).map (·.1) =
        ((run exchange {} (before' ++ question :: after'))[before'.length]?).map (·.1)) := by
  refine ⟨getElem?_documentsAfter, getElem?_run exchange {}, ?_, ?_⟩
  · intro before question after asks
    rw [documentsAfter_append, documentsAfter_append]
    exact congrArg (documentsAfter · after) (update_question _ asks)
  · intro question before after before' after' same
    have found (before after : List Step) :
        ((run exchange {} (before ++ question :: after))[before.length]?).map (·.1) =
          some (answer exchange (documentsAfter {} before) question) := by
      simp [getElem?_run]
    rw [found, found, answer_congr]
    intro address asked
    rw [getElem?_documentsAfter, getElem?_documentsAfter, same address asked]

end CursorContext.Session
