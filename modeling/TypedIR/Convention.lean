/-!
Contract: the calling conventions that have a name.

Owns:
- their native codes, their words in printed code and their tags in data;
- the largest native code, which also bounds the codes without a name.

Does not own: which codes an engine accepts.
-/

namespace TypedIR

inductive CallConvention where
  | c
  | fast
  | cold
  | ghc
  | hiPE
  | anyReg
  | preserveMost
  | preserveAll
  | swift
  | cxxFastTls
  | tail
  | x86StdCall
  | x86FastCall
  | armApcs
  | armAapcs
  | armAapcsVfp
  | x86ThisCall
  | x86SysV64
  | win64
  | x86VectorCall
deriving DecidableEq, Repr

namespace CallConvention

/-- Every named convention, by increasing code. -/
def all : List CallConvention :=
  [.c, .fast, .cold, .ghc, .hiPE, .anyReg, .preserveMost,
    .preserveAll, .swift, .cxxFastTls, .tail, .x86StdCall, .x86FastCall, .armApcs,
    .armAapcs, .armAapcsVfp, .x86ThisCall, .x86SysV64, .win64, .x86VectorCall]

/-- The largest native code of a calling convention, named or not. -/
def maxCode : UInt32 := 1023

def code : CallConvention → UInt32
  | .c => 0
  | .fast => 8
  | .cold => 9
  | .ghc => 10
  | .hiPE => 11
  | .anyReg => 13
  | .preserveMost => 14
  | .preserveAll => 15
  | .swift => 16
  | .cxxFastTls => 17
  | .tail => 18
  | .x86StdCall => 64
  | .x86FastCall => 65
  | .armApcs => 66
  | .armAapcs => 67
  | .armAapcsVfp => 68
  | .x86ThisCall => 70
  | .x86SysV64 => 78
  | .win64 => 79
  | .x86VectorCall => 80

/-- The word that stands before the return type in printed code. -/
def word : CallConvention → String
  | .c => "ccc"
  | .fast => "fastcc"
  | .cold => "coldcc"
  | .ghc => "ghccc"
  | .hiPE => "cc 11"
  | .anyReg => "anyregcc"
  | .preserveMost => "preserve_mostcc"
  | .preserveAll => "preserve_allcc"
  | .swift => "swiftcc"
  | .cxxFastTls => "cxx_fast_tlscc"
  | .tail => "tailcc"
  | .x86StdCall => "x86_stdcallcc"
  | .x86FastCall => "x86_fastcallcc"
  | .armApcs => "arm_apcscc"
  | .armAapcs => "arm_aapcscc"
  | .armAapcsVfp => "arm_aapcs_vfpcc"
  | .x86ThisCall => "x86_thiscallcc"
  | .x86SysV64 => "x86_64_sysvcc"
  | .win64 => "win64cc"
  | .x86VectorCall => "x86_vectorcallcc"

/-- The name in settings and descriptions. -/
def tag : CallConvention → String
  | .c => "c"
  | .fast => "fast"
  | .cold => "cold"
  | .ghc => "ghc"
  | .hiPE => "hi_p_e"
  | .anyReg => "any_reg"
  | .preserveMost => "preserve_most"
  | .preserveAll => "preserve_all"
  | .swift => "swift"
  | .cxxFastTls => "cxx_fast_tls"
  | .tail => "tail"
  | .x86StdCall => "x86_std_call"
  | .x86FastCall => "x86_fast_call"
  | .armApcs => "arm_apcs"
  | .armAapcs => "arm_aapcs"
  | .armAapcsVfp => "arm_aapcs_vfp"
  | .x86ThisCall => "x86_this_call"
  | .x86SysV64 => "x86_64_sys_v"
  | .win64 => "win64"
  | .x86VectorCall => "x86_vector_call"

def ofCode? (code : UInt32) : Option CallConvention :=
  all.find? fun convention => convention.code == code

def ofTag? (tag : String) : Option CallConvention :=
  all.find? fun convention => convention.tag == tag

end CallConvention

end TypedIR
