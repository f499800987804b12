import BringUp.Text.Quoted

/-!
This module contains what can be asked of the record of events that a rehearsal keeps.
-/

namespace BringUp.Rehearsal

abbrev EventLog := List String

namespace EventLog

def count (log : EventLog) (event : String) : Nat := List.count event log

def position (log : EventLog) (event : String) : Option Nat := List.idxOf? event log

def beginning (log : EventLog) (start : String) : EventLog :=
  log.filter fun e => start.toList.isPrefixOf e.toList

/--
Check that events happened in some order, each after the ones before it. The message names the first
that did not, and the number of events up to the one before it.
-/
def checkOrder (log : EventLog) (events : List String) : Except String Unit :=
  go 0 log events
where
  go (passed : Nat) (rest : EventLog) : List String → Except String Unit
    | [] => .ok ()
    | e :: es =>
      match position rest e with
      | some i => go (passed + i + 1) (rest.drop (i + 1)) es
      | none =>
        .error ("expected " ++ Text.quoted e ++ " after index " ++ toString passed ++ " in "
          ++ Text.quotedList log)

end EventLog

end BringUp.Rehearsal
