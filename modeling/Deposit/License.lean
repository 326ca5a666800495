/-!
The licenses that a package can have.

Each one has a text on rights for the descriptive record, and a file with its
whole text that is put into the package.
-/

namespace Deposit

/-- A license: its SPDX id, the name of its file, and the text on rights. -/
structure License where
  id : String
  fileName : String
  rightsText : String
  deriving DecidableEq, Repr

namespace License

/-- The public domain dedication. -/
def cc0 : License where
  id := "CC0-1.0"
  fileName := "cc0.txt"
  rightsText := "This work is dedicated to the public domain under the Creative " ++
    "Commons Universal 1.0 Public Domain Dedication. To view a copy of this " ++
    "dedication, visit https://creativecommons.org/publicdomain/zero/1.0/."

/-- Attribution, version 3. -/
def ccBy3 : License where
  id := "CC-BY-3.0"
  fileName := "ccby3.txt"
  rightsText := "This work is dedicated to the public domain under the Creative " ++
    "Commons license CC-BY 3.0. To view a copy of this dedication, visit " ++
    "https://creativecommons.org/licenses/by/3.0/us/legalcode."

/-- Attribution, version 4. -/
def ccBy4 : License where
  id := "CC-BY-4.0"
  fileName := "ccby4.txt"
  rightsText := "This information is released to the public domain under the " ++
    "Creative Commons license CC-BY 4.0 (see: " ++
    "https://creativecommons.org/licenses/by/4.0/). It may be distributed, " ++
    "remixed, and built upon. You must give appropriate credit, provide a " ++
    "reasonable manner, but not in any way that suggests the licensor endorses " ++
    "you or your use. The consumer of these data (\"Data User\" herein) should " ++
    "realize that these data may be actively used by others for ongoing research " ++
    "and that coordination may be necessary to prevent duplicate publication. " ++
    "The Data User is urged to contact the authors of these data if any " ++
    "questions about methodology or results occur. Where appropriate, the Data " ++
    "User is encouraged to consider collaboration or co-authorship with the " ++
    "authors. The Data User should realize that misinterpretation of data may " ++
    "occur if used out of context of the original study. While substantial " ++
    "efforts are made to ensure the accuracy of data and associated " ++
    "documentation, complete accuracy of data sets cannot be guaranteed. All " ++
    "data are made available \"as is.\" The Data User should be aware, however, " ++
    "that data are updated periodically and it is the responsibility of the Data " ++
    "User to check for new versions of the data. The data authors and the " ++
    "repository where these data were obtained shall not be liable for damages " ++
    "resulting from any use or misinterpretation of the data. Thank you."

/-- All licenses. -/
def supported : List License := [cc0, ccBy3, ccBy4]

/-- The license with an id. -/
def find? (id : String) : Option License := supported.find? (·.id == id)

/-- The text on rights of the license with an id; empty if there is none. -/
def rightsTextOf (id : String) : String := ((find? id).map (·.rightsText)).getD ""

/-- The path of the license's file in a directory. -/
def pathIn (l : License) (directory : String) : String :=
  if directory.isEmpty then l.fileName
  else if directory.endsWith "/" then directory ++ l.fileName
  else directory ++ "/" ++ l.fileName

end License

end Deposit
