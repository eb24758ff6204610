/-!
# Platforms

The naming conventions of the machine that artifacts are built for.
-/

namespace Rebuild

/-- How files are named on a platform. -/
structure Platform where
  /-- The name by which a configuration can ask for the platform. -/
  name : String
  /-- The extension of objects. -/
  objectExtension : String := "o"
  /-- What the file name of a static library begins with. -/
  staticLibraryPrefix : String := "lib"
  /-- The extension of static libraries. -/
  staticLibraryExtension : String := "a"
  /-- What the file name of an executable ends with. -/
  executableSuffix : String := ""
deriving DecidableEq, Repr

namespace Platform

/-- The conventions of Linux. -/
def linux : Platform := { name := "linux" }

/-- The conventions of Windows. -/
def windows : Platform := { name := "windows", executableSuffix := ".exe" }

/-- The file name of the static library called `name`. -/
def staticLibraryName (platform : Platform) (name : String) : String :=
  platform.staticLibraryPrefix ++ name ++ "." ++ platform.staticLibraryExtension

end Platform

end Rebuild
