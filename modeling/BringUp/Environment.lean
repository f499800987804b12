import BringUp.Path

/-!
This module contains the variables a program is started with, and the directories they name.
-/

namespace BringUp

abbrev Environment := List (String × String)

namespace Environment

/--
The value of a variable. The variable set last wins.
-/
def get? (env : Environment) (name : String) : Option String :=
  (env.reverse.find? (·.1 = name)).map (·.2)

def getNonempty? (env : Environment) (name : String) : Option String :=
  (env.get? name).filter (· ≠ "")

def accountHome : String := "/root"

def home (env : Environment) : String :=
  (env.getNonempty? "HOME").getD accountHome

/--
The directory for data that can be made again: the one the environment names, if that is an absolute
path, or else one in the home directory.
-/
def cacheBase (env : Environment) : String :=
  ((env.get? "XDG_CACHE_HOME").filter Path.isAbsolute).getD (Path.join env.home ".cache")

def buildCache (env : Environment) : String :=
  Path.join env.cacheBase "bootlab"

end Environment

end BringUp
