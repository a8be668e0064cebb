import EditorInsight.FileSystem

/-!
# Interpreters

The interpreters that are installed: the executable files with certain names in a list of
directories, each shown once by its path without links, in the order of paths.

* `discoverIn` finds the interpreters in a list of directories.
* `searchDirs` are the directories that are searched.
-/

namespace EditorInsight

/-- The names of interpreters. -/
def interpreterNames : List String := ["python", "python3", "python2"]

/-- The interpreters in one directory, by their paths without links. -/
def interpretersIn (fs : FileSystem) (dir : Path) : List Path :=
  ((interpreterNames.map dir.child).filter fs.isExecutable).map fun p => (fs.canonical? p).getD p

/-- The interpreters in a list of directories, ascending and each only once. -/
def discoverIn (fs : FileSystem) (dirs : List Path) : List Path :=
  Path.sorted (dirs.flatMap (interpretersIn fs))

/-- Directories in which interpreters are commonly installed. -/
def commonDirs : List Path :=
  ["/usr/bin", "/usr/local/bin", "/opt/local/bin", "/opt/bin", "/bin", "/sbin"].map Path.mk

/-- Directories below a home directory in which interpreters are commonly installed. -/
def homeDirs (home : Path) : List Path :=
  [(home.child "anaconda3").child "bin", (home.child ".local").child "bin"]

/-- The directories that are searched: those for programs, the common ones, and those below the home
directory if there is one. -/
def searchDirs (programs : List Path) (home : Option Path) : List Path :=
  programs ++ commonDirs ++ (home.map homeDirs).getD []

end EditorInsight
