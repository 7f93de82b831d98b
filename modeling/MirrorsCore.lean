import MirrorsCore.Catalog.Budget
import MirrorsCore.Catalog.JsonBudget
import MirrorsCore.Catalog.Support
import MirrorsCore.Tla.Analysis
import MirrorsCore.Tla.NameFacts
