import EditAssist.Document.Editing

/-! Edits as data: single commands, and groups of commands that are undone together. -/
namespace EditAssist

/-- What can be done to a document. -/
inductive Command
  | insert (text : List Char)
  | deleteSelection
  | replace (range : Range) (text : List Char)
  | select (selection : Selection)
  | setCaret (offset : Nat)
  | goToLine (number : Nat)
  | openGroup
  | closeGroup
  | undo
  /-- Runs commands in a group until one of them fails. -/
  | group (body : List Command)

/-- What a command that succeeds has to say. A group always succeeds: it tells what its commands
answered and which failure ended it. -/
inductive Reply
  | done
  | undone (found : Bool)
  | group (replies : List Reply) (failure : Option Failure)

namespace Command

mutual

/-- Runs one command. -/
def run : Command → Editing Reply
  | .insert text => do
    Editing.act (·.insert text)
    return .done
  | .deleteSelection => do
    Editing.act (·.deleteSelection)
    return .done
  | .replace range text => do
    Editing.act (·.replace range text)
    return .done
  | .select selection => do
    Editing.act (·.select selection)
    return .done
  | .setCaret offset => do
    Editing.act (·.setCaret offset)
    return .done
  | .goToLine number => do
    Editing.act (·.goToLine number)
    return .done
  | .openGroup => do
    Editing.act fun document => .ok document.openGroup
    return .done
  | .closeGroup => do
    Editing.act (·.closeGroup)
    return .done
  | .undo => Editing.ofFunction fun document =>
    match document.undo with
    | .ok (found, older) => (.ok (.undone found), older)
    | .error failure => (.error failure, document)
  | .group body => Editing.ofFunction fun document =>
    match runAll body document.openGroup with
    | ((replies, failure), edited) =>
      match failure.filter Failure.isFatal, edited.closeGroup with
      | some fatal, _ => (.error fatal, edited)
      | none, .ok closed => (.ok (.group replies failure), closed)
      | none, .error closing => (.ok (.group replies (some closing)), edited)

/-- Runs commands until one fails, and gives the answers of those before it. -/
def runAll : List Command → StateM Document (List Reply × Option Failure)
  | [] => pure ([], none)
  | command :: rest => fun document =>
    match (Command.run command).run document with
    | (.error failure, edited) => (([], some failure), edited)
    | (.ok reply, edited) =>
      match runAll rest edited with
      | ((replies, failure), finished) => ((reply :: replies, failure), finished)

end

end Command

end EditAssist
